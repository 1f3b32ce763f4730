import BundleForge.Generator
/-!
# Nested bundles

An accessor whose value is itself a bundle constructs the implementation generated for that bundle in
its own locale. The value is no resource, so it is neither listed nor looked up by name.
-/

namespace BundleForge.Generator

/-- The path of the implementation of a bundle, which the naming rule gives also for a bundle that is
not declared. -/
def nestedPath (context : Context) (ty : TypeName) (locale : Option String) : String :=
  match context.bundles.get? ty with
  | some bundle => bundle.implementationPath locale
  | none => TypeName.qualify ty.modulePath (Bundle.implementationName [] ty.simpleName locale)

def nested : Generator where
  Memory := Unit
  fresh := ()
  createAssignment accessor locale context session memory :=
    (.ok (nestedPath context accessor.kind locale ++ "::new()"), session, memory)
  producesPrototype := false

end BundleForge.Generator
