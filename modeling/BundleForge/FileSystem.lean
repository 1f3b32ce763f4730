import BundleForge.Bytes
import BundleForge.OrderedMap
import BundleForge.Path
/-!
# Files and directories

A file system is a value: the directories and files below the root, each at its place, and the
working directory from which relative paths start. A path is resolved step by step; every step but
the first needs a directory to start from, and double dots lead to the directory above. Reading never
changes a file system, and an operation that fails may still have created directories on its way.
-/

namespace BundleForge

inductive FileError where
  | notFound
  | alreadyExists
  | notADirectory
  | isADirectory
  | notText
  | other (text : String)
deriving DecidableEq, Repr

namespace FileError

def message : FileError → String
  | notFound => "No such file or directory (os error 2)"
  | alreadyExists => "File exists (os error 17)"
  | notADirectory => "Not a directory (os error 20)"
  | isADirectory => "Is a directory (os error 21)"
  | notText => "stream did not contain valid UTF-8"
  | other text => text

end FileError

/-- Names on the way from a file or directory up to the root, which is the empty list. -/
abbrev Place := List String

namespace Place

def path (place : Place) : Path := ⟨"/" ++ String.intercalate "/" place.reverse⟩

end Place

inductive Node where
  | directory
  | file (content : Bytes)
deriving DecidableEq

structure FileSystem where
  /-- Everything below the root. -/
  nodes : OrderedMap Place Node
  workingDirectory : Place

namespace FileSystem

def empty : FileSystem := ⟨.empty, []⟩

def node? (files : FileSystem) (place : Place) : Option Node :=
  if place = [] then some .directory else files.nodes.get? place

def isDirectoryAt (files : FileSystem) (place : Place) : Bool :=
  files.node? place == some .directory

def put (files : FileSystem) (place : Place) (node : Node) : FileSystem :=
  { files with nodes := files.nodes.insert place node }

def follow (files : FileSystem) (place : Place) : List String → Except FileError Place
  | [] => .ok place
  | step :: rest =>
    if files.isDirectoryAt place then
      if step = "" ∨ step = "." then files.follow place rest
      else if step = ".." then files.follow place.tail rest
      else if (files.node? (step :: place)).isSome then files.follow (step :: place) rest
      else .error .notFound
    else .error .notADirectory

def start (files : FileSystem) (path : Path) : Place :=
  if path.isAbsolute then [] else files.workingDirectory

def locate (files : FileSystem) (path : Path) : Except FileError Place :=
  if path.text = "" then .error .notFound else files.follow (files.start path) path.segments

def isFile (files : FileSystem) (path : Path) : Bool :=
  match files.locate path with
  | .ok place => !files.isDirectoryAt place
  | .error _ => false

def isDirectory (files : FileSystem) (path : Path) : Bool :=
  match files.locate path with
  | .ok place => files.isDirectoryAt place
  | .error _ => false

def pathExists (files : FileSystem) (path : Path) : Bool :=
  (files.locate path).toBool

/-- The absolute path of what a path names, without dots and double dots. -/
def canonical? (files : FileSystem) (path : Path) : Option Path :=
  match files.locate path with
  | .ok place => some place.path
  | .error _ => none

def read (files : FileSystem) (path : Path) : Except FileError Bytes := do
  let place ← files.locate path
  match files.node? place with
  | some (.file content) => .ok content
  | some .directory => .error .isADirectory
  | none => .error .notFound

def readText (files : FileSystem) (path : Path) : Except FileError String := do
  let content ← files.read path
  match content.text? with
  | some text => .ok text
  | none => .error .notText

/-- The last segment of a path that names something new, and the segments before it. The second
component says whether slashes follow it. -/
def cutTarget (path : Path) : List String × String × Bool :=
  let backwards := path.segments.reverse
  let named := backwards.dropWhile (· = "")
  (named.tail.reverse, named.headD "", backwards.head? = some "")

def locateParent (files : FileSystem) (path : Path) : Except FileError (Place × String) := do
  if path.text = "" then .error .notFound
  let (before, name, _) := cutTarget path
  let parent ← files.follow (files.start path) before
  if files.isDirectoryAt parent then .ok (parent, name) else .error .notADirectory

def isNew (name : String) : Bool := name != "" && name != "." && name != ".."

def createDirectory (files : FileSystem) (path : Path) : Except FileError FileSystem := do
  let (parent, name) ← files.locateParent path
  if isNew name && (files.node? (name :: parent)).isNone then
    .ok (files.put (name :: parent) .directory)
  else .error .alreadyExists

def createChain (files : FileSystem) : List Path → Except FileError Unit × FileSystem
  | [] => (.error .notFound, files)
  | path :: above =>
    if path.text = "" then (.ok (), files)
    else
      match files.createDirectory path with
      | .ok created => (.ok (), created)
      | .error .notFound =>
        match files.createChain above with
        | (.ok (), ready) =>
          match ready.createDirectory path with
          | .ok created => (.ok (), created)
          | .error error =>
            (if ready.isDirectory path then .ok () else .error error, ready)
        | (.error error, ready) => (.error error, ready)
      | .error error => (if files.isDirectory path then .ok () else .error error, files)

/-- Creates a directory and those above it as far as they are missing. -/
def createDirectories (files : FileSystem) (path : Path) : Except FileError Unit × FileSystem :=
  files.createChain path.ancestors

def write (files : FileSystem) (path : Path) (content : Bytes) : Except FileError FileSystem := do
  let (parent, name) ← files.locateParent path
  let (_, _, slashes) := cutTarget path
  if !isNew name || slashes || files.isDirectoryAt (name :: parent) then .error .isADirectory
  else .ok (files.put (name :: parent) (.file content))

def remove (files : FileSystem) (path : Path) : FileSystem :=
  match files.locate path with
  | .ok place => { files with nodes := files.nodes.erase place }
  | .error _ => files

def filesBelow (files : FileSystem) (place : Place) : List (String × Bytes) :=
  files.nodes.entries.filterMap fun (at_, node) =>
    match node with
    | .file content =>
      if place.isSuffixOf at_ ∧ at_.length > place.length then
        some (String.intercalate "/" (at_.take (at_.length - place.length)).reverse, content)
      else none
    | .directory => none

end FileSystem

end BundleForge
