import BundleForge.OrderedMap
import BundleForge.TypeName
/-!
# Declared bundles

A bundle is a declared type with named accessors, each of which asks for one resource of some kind.
The implementation generated for a bundle is named after the bundle, the types around it and the
locale; its name and its path are all that other passes know of it.
-/

namespace BundleForge

structure Accessor where
  name : String
  /-- The declared type of the value, which decides the generator. -/
  kind : TypeName
  /-- Declared sources; an empty list is not the same as none. -/
  source : Option (List String) := none
  mimeType : Option String := none
  /-- Without it the payload is deployed however small it is. -/
  embed : Bool := true
  width : Option UInt32 := none
  height : Option UInt32 := none
  /-- Takes precedence over the locale of the pass. -/
  locale : Option String := none
  /-- The bundle that declares the method, when it is inherited. -/
  owner : Option TypeName := none
deriving DecidableEq, Repr

def Accessor.effectiveLocale (accessor : Accessor) (passLocale : Option String) : Option String :=
  accessor.locale <|> passLocale

structure Bundle where
  name : TypeName
  /-- Where the resources are, dotted or slashed. -/
  package : String := ""
  /-- The types around the declaration, outermost first. -/
  enclosing : List String := []
  supertypes : List TypeName := []
  accessors : List Accessor := []
deriving DecidableEq, Repr

namespace Bundle

def packagePath (bundle : Bundle) : String :=
  String.intercalate "/"
    ((Text.segmentsWhere (fun c => c == '.' || c == '/') bundle.package).filter (· ≠ ""))

def implementationName (enclosing : List String) (simple : String) (locale : Option String) :
    String :=
  let base := String.intercalate "_" (enclosing ++ [simple])
  match locale with
  | some locale => base ++ "_" ++ locale ++ "_" ++ "Impl"
  | none => base ++ "Impl"

def implementation (bundle : Bundle) (locale : Option String) : String :=
  implementationName bundle.enclosing bundle.name.simpleName locale

def implementationPath (bundle : Bundle) (locale : Option String) : String :=
  TypeName.qualify bundle.name.modulePath (bundle.implementation locale)

def accessor? (bundle : Bundle) (name : String) : Option Accessor :=
  bundle.accessors.find? (·.name = name)

end Bundle

abbrev Bundles := OrderedMap TypeName Bundle

end BundleForge
