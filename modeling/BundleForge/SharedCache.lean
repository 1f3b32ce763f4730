import BundleForge.OrderedMap
import BundleForge.Text.Quoted
/-!
# State shared within a generator

During a pass a generator may keep values under keys of its own. A value has a kind, and one of
another kind than asked for counts as missing and is replaced. Generators never see each other's
values, because the generator is part of the key.
-/

namespace BundleForge

structure GeneratorId where
  name : String
deriving DecidableEq, Repr

inductive SharedKind where
  | number
  | text
  | counter
  /-- Which of its tables an image generator uses. -/
  | imageTable
deriving DecidableEq, Repr

abbrev SharedKind.Carrier : SharedKind → Type
  | number => UInt64
  | text => String
  | counter => UInt32
  | imageTable => Nat

structure SharedCache where
  entries : OrderedMap (GeneratorId × String) ((kind : SharedKind) × kind.Carrier)

namespace SharedCache

def empty : SharedCache := ⟨.empty⟩

def find? (cache : SharedCache) (owner : GeneratorId) (key : String) (kind : SharedKind) :
    Option kind.Carrier :=
  match cache.entries.get? (owner, key) with
  | some ⟨stored, value⟩ => if h : stored = kind then some (h ▸ value) else none
  | none => none

def put (cache : SharedCache) (owner : GeneratorId) (key : String) (kind : SharedKind)
    (value : kind.Carrier) : SharedCache :=
  ⟨cache.entries.insert (owner, key) ⟨kind, value⟩⟩

def obtain (cache : SharedCache) (owner : GeneratorId) (key : String) (kind : SharedKind)
    (initial : kind.Carrier) : kind.Carrier × SharedCache :=
  match cache.find? owner key kind with
  | some value => (value, cache)
  | none => (initial, cache.put owner key kind initial)

def display (cache : SharedCache) : String :=
  "\x7b" ++ Text.quotedList (cache.entries.keys.map fun (owner, key) => s!"{owner.name}:{key}") ++
    "\x7d"

end SharedCache

end BundleForge
