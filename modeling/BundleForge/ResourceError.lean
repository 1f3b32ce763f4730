import BundleForge.FileSystem
import BundleForge.TypeName
/-!
# What goes wrong with a resource

Each cause of failure is a constructor with what its message tells; `message` is the only place
where the wording stands.
-/

namespace BundleForge

inductive ResourceError where
  | notFound (bundle accessor : String) (candidates : List String)
  /-- No source is declared and no default extension leads to a resource. -/
  | noDefault (extensions : List String)
  | cardinality (found : Nat)
  | noGenerator (ty : TypeName)
  | unreadable (origin : String) (cause : FileError)
  | notText (origin : String)
  | unknownImage (origin : String)
  /-- The payload may not be inlined and there is nowhere to deploy it. -/
  | inlineLimit (origin : String) (size limit : Nat)
  | generation (message : String)
  | unwritable (target : String) (cause : FileError)
  /-- Two types would be written to one file. -/
  | clash (target existing requested : String)
deriving DecidableEq, Repr

namespace ResourceError

inductive Category where
  | resolution
  | cardinality
  | dispatch
  | generation
  | fatalWrite
deriving DecidableEq, Repr

def Category.label : Category → String
  | .resolution => "resolution"
  | .cardinality => "cardinality"
  | .dispatch => "dispatch"
  | .generation => "generation"
  | .fatalWrite => "fatal write"

def category : ResourceError → Category
  | notFound .. | noDefault .. => .resolution
  | cardinality .. => .cardinality
  | noGenerator .. => .dispatch
  | unreadable .. | notText .. | unknownImage .. | inlineLimit .. | generation .. => .generation
  | unwritable .. | clash .. => .fatalWrite

def message : ResourceError → String
  | notFound bundle accessor candidates =>
    s!"Resource for {accessor} in {bundle} not found (tried " ++
      String.intercalate ", " candidates ++ ")"
  | noDefault extensions =>
    "No source declared and no resources found with default extensions [" ++
      String.intercalate ", " extensions ++ "]"
  | cardinality found => s!"Exactly one resource must be specified, found {found}"
  | noGenerator ty => s!"No generator was specified for type {ty.path} or its supertypes"
  | unreadable origin cause => s!"Unable to read {origin}: {cause.message}"
  | notText origin => s!"{origin} is not valid UTF-8 text"
  | unknownImage origin => s!"Unrecognized image format in {origin}"
  | inlineLimit origin size limit =>
    s!"{origin} is {size} bytes, which exceeds the {limit} byte inline limit, and no " ++
      "deployment directory is configured"
  | generation message => message
  | unwritable target cause => s!"Unable to write {target}: {cause.message}"
  | clash target existing requested => s!"{requested} would overwrite {existing} in {target}"

end ResourceError

end BundleForge
