import BundleForge.CommandLine.Footprint
/-!
# The program

The part of the disk that a command line looks at becomes a file system, the command line is carried
out on it, and what it changed is written back. Nothing is decided here.
-/

namespace BundleForge.Program

def placeOf (files : FileSystem) (path : Path) : Place :=
  path.components.foldl
    (fun place component =>
      match component with
      | .root => []
      | .here => place
      | .up => place.tail
      | .name text => text :: place)
    files.workingDirectory

def observe (files : FileSystem) (path : Path) : IO FileSystem := do
  let target := (← IO.currentDir) / path.text
  let place := placeOf files path
  if place = [] then return files
  else if ← target.isDir then return files.put place .directory
  else if ← target.pathExists then
    return files.put place (.file (← IO.FS.readBinFile target).toList)
  else return files

def observeWay (files : FileSystem) (path : Path) : IO FileSystem :=
  path.ancestors.reverse.foldlM observe files

def observeEntries (files : FileSystem) (dir : Path) : IO FileSystem := do
  let files ← observeWay files dir
  let target := (← IO.currentDir) / dir.text
  if ← target.isDir then
    (← target.readDir).foldlM (fun files entry => observe files (dir.join ⟨entry.fileName⟩)) files
  else return files

def observeAll (files : FileSystem) (footprint : CommandLine.Footprint) : IO FileSystem := do
  let files ← footprint.paths.foldlM observeWay files
  footprint.listed.foldlM observeEntries files

def snapshot (arguments : CommandLine.Arguments) : IO FileSystem := do
  let here : Path := ⟨(← IO.currentDir).toString⟩
  let files ← observeWay
    { FileSystem.empty with workingDirectory := placeOf .empty here } here
  let files ← observeAll files { paths := CommandLine.Footprint.sources arguments }
  observeAll files (CommandLine.Footprint.ofFiles arguments files)

def writeBack (before after : FileSystem) : IO Unit :=
  after.nodes.entries.forM fun (place, node) => do
    if before.node? place = some node then return ()
    match node with
    | .directory => IO.FS.createDirAll place.path.text
    | .file content => IO.FS.writeBinFile place.path.text (ByteArray.mk content.toArray)

end BundleForge.Program

open BundleForge in
def main (arguments : List String) : IO UInt32 := do
  let files ←
    match CommandLine.parse? arguments with
    | some (.generate arguments) => Program.snapshot arguments
    | _ => pure .empty
  let (outcome, after) := CommandLine.run arguments files
  Program.writeBack files after
  IO.print outcome.output
  outcome.log.forM fun line => IO.eprintln line
  return outcome.exitCode
