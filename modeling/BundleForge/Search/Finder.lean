import BundleForge.Search.Path
/-!
# Remembered answers

A finder is a search path that remembers what it answered for each full path, misses included, until
the search path changes. `Finder.Coherent` says that all it remembers is what its search path would
answer now; lookups keep that, and a coherent finder answers as its search path does.
-/

namespace BundleForge

structure Finder where
  search : SearchPath := {}
  known : OrderedMap String (Option Handle) := .empty

namespace Finder

def register (finder : Finder) (files : FileSystem) (location : Location) (dir : Path) : Finder :=
  ⟨finder.search.register files location dir, .empty⟩

def embed (finder : Finder) (path : String) (bytes : Bytes) : Finder :=
  ⟨finder.search.embed path bytes, .empty⟩

def lookup (finder : Finder) (files : FileSystem) (path : String) : Option Handle × Finder :=
  match finder.known.get? path with
  | some answer => (answer, finder)
  | none =>
    let answer := finder.search.find? files path
    (answer, { finder with known := finder.known.insert path answer })

def firstOf (finder : Finder) (files : FileSystem) : List String → Option Handle × Finder
  | [] => (none, finder)
  | path :: rest =>
    match finder.lookup files path with
    | (some handle, finder) => (some handle, finder)
    | (none, finder) => finder.firstOf files rest

def findResource (finder : Finder) (files : FileSystem) (package name : String)
    (locale : Option String) : Option Handle × Finder :=
  finder.firstOf files (SearchPath.candidatesFor package name locale)

def findResources (finder : Finder) (files : FileSystem) (bundle : Bundle) (accessor : Accessor)
    (extensions : List String) (locale : Option String) :
    Except ResourceError (List Handle) × Finder :=
  let (found, finder) :=
    finder.firstOf files (SearchPath.candidates bundle accessor extensions locale)
  (SearchPath.resolved bundle accessor extensions found, finder)

/-- All remembered answers are those of the search path. -/
def Coherent (finder : Finder) (files : FileSystem) : Prop :=
  ∀ path answer, finder.known.get? path = some answer → answer = finder.search.find? files path

theorem coherent_of_known_empty {finder : Finder} (files : FileSystem)
    (h : finder.known = .empty) : finder.Coherent files := by
  intro path answer hpath
  rw [h, OrderedMap.get?_empty] at hpath
  simp at hpath

theorem search_lookup (finder : Finder) (files : FileSystem) (path : String) :
    (finder.lookup files path).2.search = finder.search := by
  rw [lookup]
  split <;> rfl

theorem Coherent.lookup {finder : Finder} {files : FileSystem} (h : finder.Coherent files)
    (path : String) :
    (finder.lookup files path).1 = finder.search.find? files path ∧
      (finder.lookup files path).2.Coherent files := by
  rw [Finder.lookup]
  split
  · rename_i answer hanswer
    exact ⟨h path answer hanswer, h⟩
  · refine ⟨rfl, fun other answer hother => ?_⟩
    rw [OrderedMap.get?_insert] at hother
    split at hother
    · rename_i heq
      rw [heq]
      exact (Option.some.inj hother).symm
    · exact h other answer hother

end Finder

end BundleForge
