import BundleForge.Bundle
import BundleForge.FileSystem
import BundleForge.Locale
import BundleForge.ResourceError
/-!
# Where resources are searched

Resources are looked for in an overlay of payloads held in memory, then in directories. Directories
belong to locations, which are searched in a fixed order; within one location the directory
registered first wins. `SearchPath.find?` answers for one full path, and `SearchPath.candidates` lists
all full paths an accessor may mean, the preferred ones first.
-/

namespace BundleForge

inductive Location where
  | source
  | generatedSource
  | classPath
  | classOutput
  | processorPath
deriving DecidableEq, Repr

namespace Location

def all : List Location := [source, generatedSource, classPath, classOutput, processorPath]

def label : Location → String
  | source => "source"
  | generatedSource => "generated-source"
  | classPath => "classpath"
  | classOutput => "class-output"
  | processorPath => "processor-path"

end Location

inductive Handle where
  | embedded (path : String)
  | file (location : Location) (path : Path)
deriving DecidableEq, Repr

namespace Handle

/-- Where the resource comes from, as messages and comments tell it. -/
def origin : Handle → String
  | embedded path => "embedded:" ++ path
  | file _ path => path.text

def fileName : Handle → String
  | embedded path => String.ofList (Text.afterLast '/' path.toList)
  | file _ path => path.fileName?.getD ""

def location? : Handle → Option Location
  | embedded _ => none
  | file location _ => some location

end Handle

structure Resource where
  origin : String
  fileName : String
  bytes : Bytes
deriving DecidableEq

structure SearchPath where
  registered : List (Location × Path) := []
  embedded : OrderedMap String Bytes := .empty

namespace SearchPath

/-- A root-relative path: slashes at its start do not count. -/
def rootRelative (path : String) : String :=
  String.ofList (path.toList.dropWhile (· = '/'))

/-- Registers a directory, in canonical form if it exists. One that is registered for the location
already is not registered again. -/
def register (search : SearchPath) (files : FileSystem) (location : Location) (dir : Path) :
    SearchPath :=
  let dir := (files.canonical? dir).getD dir
  if search.registered.any fun (other, known) =>
      other == location && known.components == dir.components then search
  else { search with registered := search.registered ++ [(location, dir)] }

/-- Adds a payload to the overlay, in place of an earlier one with the same path. -/
def embed (search : SearchPath) (path : String) (bytes : Bytes) : SearchPath :=
  { search with embedded := search.embedded.insert (rootRelative path) bytes }

def directories (search : SearchPath) : List (Location × Path) :=
  Location.all.flatMap fun location => search.registered.filter (·.1 = location)

def find? (search : SearchPath) (files : FileSystem) (path : String) : Option Handle :=
  if search.embedded.contains path then some (.embedded path)
  else
    search.directories.findSome? fun (location, dir) =>
      let target := dir.join ⟨path⟩
      if files.isFile target then some (.file location target) else none

def fullPath (package name : String) : String :=
  if package = "" then rootRelative name else package ++ "/" ++ rootRelative name

/-- The full paths a name inside a package may mean, the most specific locale first. -/
def candidatesFor (package name : String) (locale : Option String) : List String :=
  Locale.candidates (fullPath package name) locale

/-- The full paths an accessor may mean. Each declared source is meant relative to the package, then
to the root; without declared sources the name of the accessor is tried with each extension. -/
def candidates (bundle : Bundle) (accessor : Accessor) (extensions : List String)
    (locale : Option String) : List String :=
  match accessor.source with
  | some sources =>
    sources.flatMap fun source =>
      candidatesFor bundle.packagePath source locale ++ candidatesFor "" source locale
  | none =>
    extensions.flatMap fun extension =>
      candidatesFor bundle.packagePath (accessor.name ++ extension) locale

/-- The resources of an accessor, given the first candidate that exists. An empty list of sources
asks for nothing. -/
def resolved (bundle : Bundle) (accessor : Accessor) (extensions : List String)
    (found : Option Handle) : Except ResourceError (List Handle) :=
  match found, accessor.source with
  | some handle, _ => .ok [handle]
  | none, some [] => .ok []
  | none, some sources => .error (.notFound bundle.name.path accessor.name sources)
  | none, none => .error (.noDefault extensions)

def load (search : SearchPath) (files : FileSystem) (handle : Handle) :
    Except ResourceError Resource := do
  let bytes ←
    match handle with
    | .embedded path =>
      match search.embedded.get? path with
      | some bytes => .ok bytes
      | none => .error (.generation s!"embedded resource {path} vanished")
    | .file _ path =>
      match files.read path with
      | .ok bytes => .ok bytes
      | .error cause => .error (.unreadable handle.origin cause)
  return ⟨handle.origin, handle.fileName, bytes⟩

end SearchPath

def exactlyOne : List Handle → Except ResourceError Handle
  | [handle] => .ok handle
  | handles => .error (.cardinality handles.length)

end BundleForge
