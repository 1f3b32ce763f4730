import BundleForge.Implementation
import BundleForge.Layout
/-!
# The source of a generated module

Every item of an implementation has one place in the source and one form there. The module is private
and only the implementing type is exported from it.
-/

namespace BundleForge.Implementation

open Layout (block)

def heading (implementation : Implementation) : String :=
  let scope :=
    match implementation.locale with
    | some locale => s!" for locale {locale}"
    | none => ""
  s!"// Generated by resource-bundler from {implementation.bundle.path}{scope}. Do not edit."

def lints : String :=
  "#![allow(dead_code, missing_debug_implementations, non_camel_case_types, " ++
    "non_snake_case, non_upper_case_globals, trivial_casts, unused_qualifications, " ++
    "clippy::all, clippy::pedantic, clippy::nursery, clippy::restriction)]"

def staticLayout (member : Member) : Layout :=
  [.line s!"static {member.ident}: {member.type} = {member.value};", .blank]

def structLayout (implementation : Implementation) : Layout :=
  match implementation.fields with
  | [] => [.line ("pub struct " ++ implementation.simpleName ++ " \x7b\x7d"), .blank]
  | fields =>
    block ("pub struct " ++ implementation.simpleName) ""
      (fields.map fun field => .line s!"{field.ident}: {field.type},") ++ [.blank]

def selfLayout (implementation : Implementation) : Layout :=
  match implementation.fields with
  | [] => [.line "Self \x7b\x7d"]
  | fields => block "Self" "" (fields.map fun field => .line s!"{field.ident}: {field.value},")

def initializerLayout (initializer : Initializer) : Layout :=
  block s!"fn {initializer.accessor}_initializer(&self) -> &'static dyn {initializer.result}" ""
    (block s!"&**{initializer.slot}.get_or_init(|| -> {initializer.slotType}" ")"
      (initializer.comments.map .line ++
        [.line s!"::std::boxed::Box::new({initializer.expression})"]))

def inherentLayout (implementation : Implementation) : Layout :=
  block ("impl " ++ implementation.simpleName) ""
    (block "pub const fn new() -> Self" "" (selfLayout implementation) ++
      implementation.initializers.flatMap fun initializer =>
        .blank :: initializerLayout initializer) ++
  [.blank]

def holderLayout (holder : Holder) : Layout :=
  [.line s!"struct {holder.name};", .blank] ++
  block ("impl " ++ holder.name) ""
    (block s!"fn get() -> &'static dyn {holder.result}" ""
      [.line (instanceIdent ++ s!".{holder.accessor}_initializer()")]) ++
  [.blank]

def methodLayout (method : Method) : Layout :=
  block s!"fn {method.name}(&self) -> &'static dyn {method.result}" ""
    [.line s!"{method.holder}::get()"]

def conformanceLayout (simpleName : String) (conformance : Conformance) : Layout :=
  let header := s!"impl {conformance.bundle} for {simpleName}"
  match conformance.methods with
  | [] => [.line (header ++ " \x7b\x7d"), .blank]
  | first :: rest =>
    block header ""
      (methodLayout first ++ rest.flatMap fun method => .blank :: methodLayout method) ++
    [.blank]

def resourcesLayout (listed : List Listed) : Layout :=
  block s!"fn resources(&self) -> ::std::vec::Vec<{prototypeReference}>" ""
    (match listed with
      | [] => [.line "::std::vec::Vec::new()"]
      | listed =>
        [.line "::std::vec![", .indent] ++
        listed.map (fun entry => .line s!"{entry.holder}::get() as {prototypeReference},") ++
        [.outdent, .line "]"])

def resourceLayout (listed : List Listed) : Layout :=
  block s!"fn resource(&self, name: &str) -> ::std::option::Option<{prototypeReference}>" ""
    ([.line resourceMapIdent, .indent] ++
      block ".get_or_init(||" ")"
        ([.line "::std::collections::HashMap::from([", .indent] ++
          listed.map (fun entry =>
            .line ("(\"" ++ entry.name ++ s!"\", {entry.holder}::get() as {prototypeReference}),")) ++
          [.outdent, .line "])"]) ++
      [.line ".get(name)", .line ".copied()", .outdent])

def clientBundleLayout (implementation : Implementation) : Layout :=
  block s!"impl {TypeName.clientBundle.path} for {implementation.simpleName}" ""
    (resourcesLayout implementation.listed ++ [.blank] ++ resourceLayout implementation.listed)

def moduleLayout (implementation : Implementation) : Layout :=
  [.line lints, .blank] ++
  implementation.statics.flatMap staticLayout ++
  structLayout implementation ++
  inherentLayout implementation ++
  implementation.holders.flatMap holderLayout ++
  implementation.conformances.flatMap (conformanceLayout implementation.simpleName) ++
  clientBundleLayout implementation

def layout (implementation : Implementation) : Layout :=
  [.line implementation.heading, .blank,
    .line s!"pub use self::{implementation.moduleName}::{implementation.simpleName};", .blank] ++
  block ("mod " ++ implementation.moduleName) "" (moduleLayout implementation)

def source (implementation : Implementation) : String :=
  implementation.layout.render

end BundleForge.Implementation

namespace BundleForge

def Assembly.source (assembly : Assembly) : String :=
  (Implementation.ofAssembly assembly).source

end BundleForge
