import BundleForge.Proofs.OrderedMap
import BundleForge.Proofs.Search.Finder
import Mathlib.Data.List.Induction
/-!
# What a search path holds

A search path is the outcome of a history, and it is read off the history here: the payloads that were
embedded, and for each location the directories that were registered for it, where only the first
registration of a directory counts. `Reflects` says that a search path holds just that; every action keeps
it. The order in which directories of different locations were registered is no part of it.
-/

namespace BundleForge

namespace Finder

/-- The directory that is registered for a location, in canonical form if it exists. -/
def Action.registered? (files : FileSystem) (location : Location) : Action → Option Path
  | .register other dir => if other = location then some ((files.canonical? dir).getD dir) else none
  | .embed .. | .ask _ => none

def Action.payload? : Action → Option String
  | .embed path _ => some (SearchPath.rootRelative path)
  | .register .. | .ask _ => none

/-- The directories registered for a location, in the order of registration. -/
def registrations (files : FileSystem) (location : Location) (history : List Action) : List Path :=
  history.filterMap (Action.registered? files location)

def payloads (history : List Action) : List String := history.filterMap Action.payload?

theorem registrations_concat (files : FileSystem) (location : Location) (history : List Action)
    (action : Action) :
    registrations files location (history ++ [action]) =
      registrations files location history ++ (action.registered? files location).toList := by
  rw [registrations, List.filterMap_append, List.filterMap_cons]
  cases action.registered? files location with
  | none => rfl
  | some dir => rfl

theorem payloads_concat (history : List Action) (action : Action) :
    payloads (history ++ [action]) = payloads history ++ action.payload?.toList := by
  rw [payloads, List.filterMap_append, List.filterMap_cons]
  cases action.payload? with
  | none => rfl
  | some path => rfl

/-- Directories with their positions, of equal ones only the first. -/
def firsts (dirs : List Path) : List (Path × Nat) :=
  dirs.zipIdx.filter fun entry =>
    !(dirs.take entry.2).any (·.components == entry.1.components)

theorem mem_firsts {dirs : List Path} {dir : Path} {position : Nat} :
    (dir, position) ∈ firsts dirs ↔ dirs[position]? = some dir ∧
      ∀ earlier ∈ dirs.take position, earlier.components ≠ dir.components := by
  simp only [firsts, List.mem_filter, List.mem_zipIdx_iff_getElem?, Bool.not_eq_true', List.any_eq_false,
    beq_iff_eq, ne_eq]

theorem firsts_concat (dirs : List Path) (dir : Path) :
    firsts (dirs ++ [dir]) = firsts dirs ++
      if dirs.any (·.components == dir.components) then [] else [(dir, dirs.length)] := by
  rw [firsts, List.zipIdx_append, List.filter_append]
  congr 1
  · apply List.filter_congr
    intro entry hentry
    have hlt : entry.2 < dirs.length := by
      rw [List.mem_zipIdx_iff_getElem?] at hentry
      exact (List.getElem?_eq_some_iff.1 hentry).1
    rw [List.take_append_of_le_length (Nat.le_of_lt hlt)]
  · rw [List.zipIdx_singleton, List.filter_singleton, Nat.zero_add, List.take_left']
    · cases dirs.any (·.components == dir.components) with
      | true => rfl
      | false => rfl
    · rfl

theorem any_firsts (dirs : List Path) (components : List Path.Component) :
    (firsts dirs).any (·.1.components == components) = dirs.any (·.components == components) := by
  induction dirs using List.reverseRecOn with
  | nil => rfl
  | append_singleton dirs dir ih =>
    rw [firsts_concat, List.any_append, List.any_append, ih]
    by_cases hsame : dir.components = components
    · rw [hsame]
      cases hknown : dirs.any (·.components == components) with
      | true => rfl
      | false => simp [hsame]
    · have hother : (dir.components == components) = false := beq_false_of_ne hsame
      split <;> simp [hother]

/-- A search path holds what was embedded and registered in a history. -/
structure Reflects (files : FileSystem) (history : List Action) (search : SearchPath) : Prop where
  overlay : ∀ path, search.embedded.contains path = true ↔ path ∈ payloads history
  directories : ∀ location, search.registered.filter (·.1 = location) =
    (firsts (registrations files location history)).map fun entry => (location, entry.1)

variable {files : FileSystem} {history : List Action} {search : SearchPath}

theorem Reflects.embed (h : Reflects files history search) (path : String) (bytes : Bytes) :
    Reflects files (history ++ [.embed path bytes]) (search.embed path bytes) where
  overlay other := by
    have hother := h.overlay other
    rw [OrderedMap.contains_iff, OrderedMap.mem_keys_iff] at hother
    rw [OrderedMap.contains_iff, OrderedMap.mem_keys_iff, payloads_concat, List.mem_append, ← hother]
    simp only [SearchPath.embed, OrderedMap.get?_insert]
    by_cases hsame : other = SearchPath.rootRelative path
    · simp [hsame, Action.payload?]
    · simp [hsame, Action.payload?]
  directories location := by
    rw [registrations_concat, Action.registered?, Option.toList_none, List.append_nil]
    exact h.directories location

/-- A search path knows a directory of a location exactly if it was registered for it. -/
theorem Reflects.any_registered (h : Reflects files history search) (location : Location)
    (components : List Path.Component) :
    (search.registered.any fun entry => entry.1 == location && entry.2.components == components) =
      (registrations files location history).any (·.components == components) := by
  have hmap : ∀ entries : List (Path × Nat),
      (entries.map fun entry => (location, entry.1)).any (·.2.components == components) =
        entries.any (·.1.components == components) := by
    intro entries
    rw [List.any_map]
    rfl
  rw [← any_firsts, ← hmap, ← h.directories location, List.any_filter]
  rfl

theorem Reflects.register (h : Reflects files history search) (location : Location) (dir : Path) :
    Reflects files (history ++ [.register location dir]) (search.register files location dir) where
  overlay path := by
    have hembedded : (search.register files location dir).embedded = search.embedded := by
      rw [SearchPath.register]
      split <;> rfl
    rw [hembedded, payloads_concat, Action.payload?, Option.toList_none, List.append_nil]
    exact h.overlay path
  directories other := by
    rw [registrations_concat, SearchPath.register]
    dsimp only
    rw [h.any_registered, Action.registered?]
    by_cases hsame : location = other
    · subst hsame
      rw [if_pos rfl, Option.toList_some, firsts_concat, List.map_append, ← h.directories location]
      split
      · simp
      · simp [List.filter_append]
    · rw [if_neg hsame, Option.toList_none, List.append_nil, ← h.directories other]
      split
      · rfl
      · simp [List.filter_append, hsame]

theorem Reflects.act (h : Reflects files history search) (action : Action) :
    Reflects files (history ++ [action]) (search.act files action) := by
  cases action with
  | register location dir => exact h.register location dir
  | embed path bytes => exact h.embed path bytes
  | ask query =>
    constructor
    · intro path
      rw [payloads_concat, Action.payload?, Option.toList_none, List.append_nil]
      exact h.overlay path
    · intro location
      rw [registrations_concat, Action.registered?, Option.toList_none, List.append_nil]
      exact h.directories location

theorem Reflects.after (h : Reflects files history search) (later : List Action) :
    Reflects files (history ++ later) (search.after files later) := by
  induction later generalizing history search with
  | nil =>
    rw [List.append_nil]
    exact h
  | cons action rest ih =>
    rw [List.append_cons]
    exact ih (h.act action)

theorem reflects_after (files : FileSystem) (history : List Action) :
    Reflects files history (({} : SearchPath).after files history) := by
  have hfresh : Reflects files [] {} := by
    constructor
    · intro path
      simp [payloads, OrderedMap.contains]
    · intro location
      rfl
  exact hfresh.after history

end Finder

end BundleForge
