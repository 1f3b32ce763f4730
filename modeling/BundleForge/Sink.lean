import BundleForge.FileSystem
import BundleForge.Identifier.Words
import BundleForge.ResourceError
/-!
# Where generated sources go

A pass first claims the name of the type it will generate, and commits the source under that claim
when it is done. A name that has been claimed is not granted again. The memory sink keeps sources by
qualified name; the file sink writes one file for each type, and refuses a claim whose file belongs to
another type already.
-/

namespace BundleForge

structure Claim where
  modulePath : String
  simpleName : String
deriving DecidableEq, Repr

def Claim.qualifiedName (claim : Claim) : String :=
  TypeName.qualify claim.modulePath claim.simpleName

class Sink (σ : Type) where
  claim : σ → Claim → Except ResourceError (Option Claim) × σ
  commit : σ → FileSystem → Claim → String → Except ResourceError (Option Path) × FileSystem × σ

/-! ## In memory -/

structure MemorySink where
  claimed : List String := []
  sources : OrderedMap String String := .empty

namespace MemorySink

def claim (sink : MemorySink) (wanted : Claim) : Option Claim × MemorySink :=
  if wanted.qualifiedName ∈ sink.claimed then (none, sink)
  else (some wanted, { sink with claimed := sink.claimed ++ [wanted.qualifiedName] })

def commit (sink : MemorySink) (claim : Claim) (source : String) : MemorySink :=
  { sink with sources := sink.sources.insert claim.qualifiedName source }

def get? (sink : MemorySink) (qualifiedName : String) : Option String :=
  sink.sources.get? qualifiedName

instance : Sink MemorySink where
  claim sink wanted :=
    let (granted, sink) := sink.claim wanted
    (.ok granted, sink)
  commit sink files claim source := (.ok none, files, sink.commit claim source)

end MemorySink

/-! ## In files -/

structure FileSink where
  outDir : Path
  /-- The claimed files, by their components, with the type each one holds. -/
  created : OrderedMap (List Path.Component) String := .empty

namespace FileSink

def moduleSegments : List Char → List (List Char)
  | [] => [[]]
  | c :: rest =>
    if c = ':' ∧ rest.head? = some ':' then [] :: moduleSegments rest.tail
    else
      match moduleSegments rest with
      | [] => [[c]]
      | first :: others => (c :: first) :: others
termination_by path => path.length
decreasing_by
  all_goals simp only [List.length_tail, List.length_cons]
  all_goals omega

/-- Segments that stand for a place in the module tree and not for a directory. -/
def isAnchor (segment : String) : Bool :=
  segment == "" || segment == "crate" || segment == "self" || segment == "super"

def targetSegments (claim : Claim) : List String :=
  (((moduleSegments claim.modulePath.toList).map String.ofList).filter (!isAnchor ·)) ++
    [Identifier.toSnakeCase claim.simpleName ++ ".rs"]

def target (sink : FileSink) (claim : Claim) : Path :=
  (targetSegments claim).foldl (fun path segment => path.join ⟨segment⟩) sink.outDir

def claim (sink : FileSink) (wanted : Claim) : Except ResourceError (Option Claim) × FileSink :=
  let target := sink.target wanted
  match sink.created.get? target.components with
  | some existing =>
    if existing = wanted.qualifiedName then (.ok none, sink)
    else (.error (.clash target.text existing wanted.qualifiedName), sink)
  | none =>
    (.ok (some wanted),
      { sink with created := sink.created.insert target.components wanted.qualifiedName })

def commit (sink : FileSink) (files : FileSystem) (claim : Claim) (source : String) :
    Except ResourceError (Option Path) × FileSystem :=
  let target := sink.target claim
  let dir := target.parent?.getD ⟨""⟩
  match files.createDirectories dir with
  | (.error cause, files) => (.error (.unwritable dir.text cause), files)
  | (.ok (), files) =>
    match files.write target (Bytes.ofText source) with
    | .ok files => (.ok (some target), files)
    | .error cause => (.error (.unwritable target.text cause), files)

instance : Sink FileSink where
  claim := claim
  commit sink files claim source :=
    let (result, files) := sink.commit files claim source
    (result, files, sink)

end FileSink

end BundleForge
