import BundleForge.Bundle
import BundleForge.Field
import BundleForge.Literal
/-!
# The module generated for a bundle

An implementation is the list of items of the generated module, before anything is written: statics,
the fields of the implementing type, one initializer and one holder for each accessor, and one
conformance for each bundle the type implements. An accessor is wired through them: the method of its
owner returns what its holder gets, the holder calls its initializer, and the initializer fills its
slot with the expression of its generator on first use.
-/

namespace BundleForge

structure AccessorCode where
  accessor : Accessor
  slot : String
  /-- The expression for the value, with comment lines in front. -/
  initializer : String
  isPrototype : Bool
deriving DecidableEq, Repr

structure Assembly where
  bundle : Bundle
  simpleName : String
  locale : Option String
  supertypes : List TypeName
  fields : FieldRegistry
  accessors : List AccessorCode

structure Member where
  ident : String
  type : String
  value : String
deriving DecidableEq, Repr

structure Initializer where
  accessor : String
  result : String
  slot : String
  slotType : String
  comments : List String
  expression : String
deriving DecidableEq, Repr

structure Holder where
  name : String
  result : String
  accessor : String
deriving DecidableEq, Repr

structure Method where
  name : String
  result : String
  holder : String
deriving DecidableEq, Repr

structure Conformance where
  bundle : String
  methods : List Method
deriving DecidableEq, Repr

structure Listed where
  name : String
  holder : String
deriving DecidableEq, Repr

structure Implementation where
  bundle : TypeName
  locale : Option String
  simpleName : String
  moduleName : String
  statics : List Member
  fields : List Member
  initializers : List Initializer
  holders : List Holder
  conformances : List Conformance
  listed : List Listed

namespace Implementation

/-- The path of a type as seen from inside the generated module, which lies one level below the
module of the bundle. -/
def pathInside (ty : TypeName) : String :=
  if Text.beginsWith "::" ty.path || Text.beginsWith "crate::" ty.path then ty.path
  else "super::" ++ (Text.dropBeginning? "self::" ty.path).getD ty.path

def slotType (kind : TypeName) : String :=
  "::std::boxed::Box<dyn " ++ pathInside kind ++ " + Send + Sync>"

def prototypeReference : String := "&'static dyn " ++ TypeName.resourcePrototype.path

def cell (type : String) : String := "::std::sync::OnceLock<" ++ type ++ ">"

def emptyCell : String := "::std::sync::OnceLock::new()"

/-- The comment lines at the start of an expression, and the expression itself. A comment that no
newline ends is not taken off. -/
def splitComments (text : List Char) : List (List Char) × List Char :=
  if "//".toList.isPrefixOf text then
    match _h : Text.cutFirst? '\n' text with
    | some (comment, rest) =>
      let (comments, expression) := splitComments rest
      (comment :: comments, expression)
    | none => ([], text)
  else ([], text)
termination_by text.length
decreasing_by
  rw [Text.eq_append_of_cutFirst? _h, List.length_append, List.length_cons]
  omega

def holderNames (used : List String) : List String → List String
  | [] => []
  | accessor :: rest =>
    let name := Identifier.fresh used "" (Identifier.toCamelCase accessor ++ "Initializer")
    name :: holderNames (used ++ [name]) rest

def staticMember (field : Field) : Member :=
  match field.initializer with
  | some initializer =>
    ⟨field.ident, "::std::sync::LazyLock<" ++ field.type ++ ">",
      "::std::sync::LazyLock::new(|| " ++ initializer ++ ")"⟩
  | none => ⟨field.ident, cell field.type, emptyCell⟩

def instanceMember (field : Field) : Member :=
  match field.initializer with
  | some initializer => ⟨field.ident, field.type, initializer⟩
  | none => ⟨field.ident, cell field.type, emptyCell⟩

def fixedStatics (simpleName : String) : List Member :=
  [⟨instanceIdent, simpleName, simpleName ++ "::new()"⟩,
   ⟨resourceMapIdent,
    cell ("::std::collections::HashMap<&'static str, " ++ prototypeReference ++ ">"), emptyCell⟩]

def initializerOf (code : AccessorCode) : Initializer :=
  let (comments, expression) := splitComments code.initializer.toList
  { accessor := code.accessor.name
    result := pathInside code.accessor.kind
    slot := code.slot
    slotType := slotType code.accessor.kind
    comments := comments.map String.ofList
    expression := String.ofList expression }

def ownerOf (assembly : Assembly) (code : AccessorCode) : TypeName :=
  code.accessor.owner.getD assembly.bundle.name

def owners (assembly : Assembly) : List TypeName :=
  (assembly.bundle.name :: assembly.supertypes ++
    assembly.accessors.map (ownerOf assembly)).eraseDups

def conformanceOf (assembly : Assembly) (held : List (AccessorCode × String)) (owner : TypeName) :
    Conformance where
  bundle := pathInside owner
  methods := (held.filter fun (code, _) => ownerOf assembly code = owner).map fun (code, holder) =>
    ⟨code.accessor.name, pathInside code.accessor.kind, holder⟩

def ofAssembly (assembly : Assembly) : Implementation :=
  let names := holderNames [assembly.simpleName] (assembly.accessors.map (·.accessor.name))
  let held := assembly.accessors.zip names
  { bundle := assembly.bundle.name
    locale := assembly.locale
    simpleName := assembly.simpleName
    moduleName := "__" ++ Identifier.toSnakeCase assembly.simpleName
    statics := fixedStatics assembly.simpleName ++ assembly.fields.statics.map staticMember
    fields := assembly.fields.instanceFields.map instanceMember
    initializers := assembly.accessors.map initializerOf
    holders := held.map fun (code, holder) =>
      ⟨holder, pathInside code.accessor.kind, code.accessor.name⟩
    conformances := (owners assembly).map (conformanceOf assembly held)
    listed := (held.filter fun (code, _) => code.isPrototype).map fun (code, holder) =>
      ⟨code.accessor.name, holder⟩ }

end Implementation

end BundleForge
