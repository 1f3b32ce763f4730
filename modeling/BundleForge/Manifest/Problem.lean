import BundleForge.Hierarchy
import BundleForge.Identifier
import BundleForge.Manifest.Declarations
import BundleForge.Manifest.Inheritance
/-!
# What is wrong with a manifest

All problems of a manifest are collected before any is reported: those of the types, those of each
bundle in turn, supertypes that nobody declares, and bundles that extend themselves. Of several tables
for one bundle only the first counts; the others are a problem each, and so are invalid names in
them. A report names equal problems once.
-/

namespace BundleForge

inductive Problem where
  | namelessType
  | bundleName (bundle : TypeName)
  | enclosingName (bundle : TypeName) (enclosing : String)
  | accessorName (bundle : TypeName) (accessor : String)
  | repeatedAccessor (bundle : TypeName) (accessor : String)
  | repeatedBundle (bundle : TypeName)
  | unknownSupertype (bundle supertype : TypeName)
  | circle (bundle : TypeName)
deriving DecidableEq, Repr

namespace Problem

def message : Problem → String
  | namelessType => "A declared type has an empty name"
  | bundleName bundle => s!"Bundle name {bundle.path} is not a valid type name"
  | enclosingName bundle enclosing =>
    "Enclosing type " ++ Text.quoted enclosing ++ s!" of {bundle.path} is not a valid type name"
  | accessorName bundle accessor =>
    "Accessor " ++ Text.quoted accessor ++ s!" of {bundle.path} is not a valid identifier"
  | repeatedAccessor bundle accessor =>
    s!"Accessor {accessor} is declared more than once in {bundle.path}"
  | repeatedBundle bundle => s!"Bundle {bundle.path} is declared more than once"
  | unknownSupertype bundle supertype =>
    s!"Bundle {bundle.path} extends unknown type {supertype.path}"
  | circle bundle => s!"Bundle {bundle.path} inherits from itself"

def messages (problems : List Problem) : List String := (problems.map message).eraseDups

def report (problems : List Problem) : String :=
  let lines := messages problems
  s!"{lines.length} problem(s) found:\n  " ++ String.intercalate "\n  " lines

end Problem

namespace Declarations

def isNamed (type : TypeDeclaration) : Bool := type.name.path != ""

def typeHierarchy (declarations : Declarations) : Hierarchy :=
  (declarations.types.filter isNamed).foldl
    (fun hierarchy type => hierarchy.declare type.name type.supertypes type.extensions) .builtin

/-- The first table of each bundle. -/
def firstTables (declarations : Declarations) : Bundles :=
  declarations.bundles.foldl
    (fun bundles bundle =>
      if bundles.contains bundle.name then bundles else bundles.insert bundle.name bundle) .empty

/-- Names that are no identifiers, or repeated, among accessors that follow others. -/
def accessorProblems (bundle : TypeName) (before : List String) : List Accessor → List Problem
  | [] => []
  | accessor :: rest =>
    (if Identifier.isValid accessor.name then [] else [.accessorName bundle accessor.name]) ++
      (if accessor.name ∈ before then [.repeatedAccessor bundle accessor.name] else []) ++
      accessorProblems bundle (accessor.name :: before) rest

def bundleProblems (bundle : Bundle) : List Problem :=
  (if Identifier.isValid bundle.name.simpleName then [] else [.bundleName bundle.name]) ++
    (bundle.enclosing.filter (!Identifier.isValid ·)).map (.enclosingName bundle.name) ++
    accessorProblems bundle.name [] bundle.accessors

def tableProblems (before : List TypeName) : List Bundle → List Problem
  | [] => []
  | bundle :: rest =>
    bundleProblems bundle ++
      (if bundle.name ∈ before then [.repeatedBundle bundle.name] else []) ++
      tableProblems (bundle.name :: before) rest

def supertypeProblems (bundles : Bundles) (hierarchy : Hierarchy) (bundle : Bundle) :
    List Problem :=
  (bundle.supertypes.filter fun ty => !bundles.contains ty && !hierarchy.contains ty).map
    (.unknownSupertype bundle.name)

def problems (declarations : Declarations) : List Problem :=
  let bundles := declarations.firstTables
  (declarations.types.filter (!isNamed ·)).map (fun _ => .namelessType) ++
    tableProblems [] declarations.bundles ++
    bundles.values.flatMap (supertypeProblems bundles declarations.typeHierarchy) ++
    (bundles.keys.flatMap (Inheritance.circles bundles [])).map .circle

end Declarations

end BundleForge
