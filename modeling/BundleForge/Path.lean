import BundleForge.Text.Segments
/-!
# Paths of files

A path is kept as it was written, and messages show it so. What it names depends on its components
alone: repeated slashes, a slash at the end and single dots inside a path have none, while a single
dot at the start of a relative path and double dots have one each.
-/

namespace BundleForge

structure Path where
  text : String
deriving DecidableEq, Repr, Inhabited

namespace Path

inductive Component where
  | root
  | here
  | up
  | name (text : String)
deriving DecidableEq, Repr

def segments (p : Path) : List String := Text.segments '/' p.text

def isAbsolute (p : Path) : Bool := Text.beginsWith "/" p.text

def component? (segment : String) : Option Component :=
  if segment = "" ∨ segment = "." then none
  else if segment = ".." then some .up
  else some (.name segment)

def components (p : Path) : List Component :=
  let rest := p.segments.filterMap component?
  if p.isAbsolute then .root :: rest
  else if p.segments.head? = some "." then .here :: rest
  else rest

/-- The path of `other` seen from a directory: an absolute path stays what it is. -/
def join (dir other : Path) : Path :=
  if other.isAbsolute then other
  else if dir.text = "" ∨ Text.beginsWith "/" (String.ofList dir.text.toList.reverse) then
    ⟨dir.text ++ other.text⟩
  else ⟨dir.text ++ "/" ++ other.text⟩

/-- Segments, last first, without those at the end that are no component. -/
def dropSilent (relative : Bool) : List String → List String
  | [] => []
  | segment :: before =>
    if segment = "" ∨ (segment = "." ∧ ¬(relative ∧ before = [])) then dropSilent relative before
    else segment :: before

/-- The path without its last component; there is none for the root and for the empty path. -/
def parent? (p : Path) : Option Path :=
  let relative := !p.isAbsolute
  let body := if relative then p.segments else p.segments.tail
  match dropSilent relative body.reverse with
  | [] => none
  | _ :: before =>
    let text := String.intercalate "/" (dropSilent relative before).reverse
    some ⟨if relative then text else "/" ++ text⟩

def fileName? (p : Path) : Option String :=
  match p.components.getLast? with
  | some (.name text) => some text
  | _ => none

def lineage (p : Path) : Nat → List Path
  | 0 => [p]
  | count + 1 =>
    match p.parent? with
    | some parent => p :: lineage parent count
    | none => [p]

def ancestors (p : Path) : List Path := p.lineage p.segments.length

end Path

end BundleForge
