import BundleForge.OrderedMap
import Mathlib.Data.List.Forall2
import Mathlib.Data.List.Nodup
/-!
# Views of ordered maps

A map is known by its keys and by its answers. What is said here of looking up, erasing, inserting and
changing values speaks of these two views only, and what is proved about the maps of a run goes through
them. Two maps are alike if their entries are related one by one; what is done to both keeps them so.
-/

namespace BundleForge.OrderedMap

universe u v

variable {κ : Type u} {ν : Type v} [DecidableEq κ]

theorem get?_eq_some_iff {m : OrderedMap κ ν} {key : κ} {value : ν} :
    m.get? key = some value ↔ (key, value) ∈ m.entries := by
  constructor
  · intro h
    obtain ⟨before, after, hsplit, -⟩ := List.lookup_eq_some_iff.1 h
    rw [hsplit]
    simp
  · intro h
    obtain ⟨before, after, hsplit⟩ := List.append_of_mem h
    have hnodup := m.nodup_keys
    rw [hsplit, List.map_append, List.map_cons, List.nodup_append] at hnodup
    refine List.lookup_eq_some_iff.2 ⟨before, after, hsplit, fun entry hentry => ?_⟩
    have hne := hnodup.2.2 entry.1 (List.mem_map_of_mem hentry) key List.mem_cons_self
    simpa [bne_iff_ne] using hne.symm

theorem mem_keys_iff {m : OrderedMap κ ν} {key : κ} :
    key ∈ m.keys ↔ ∃ value, m.get? key = some value := by
  simp only [keys, get?_eq_some_iff, List.mem_map, Prod.exists, exists_and_right, exists_eq_right]

theorem get?_eq_none_iff {m : OrderedMap κ ν} {key : κ} : m.get? key = none ↔ key ∉ m.keys := by
  rw [mem_keys_iff, Option.eq_none_iff_forall_ne_some, not_exists]

theorem contains_iff {m : OrderedMap κ ν} {key : κ} : m.contains key = true ↔ key ∈ m.keys := by
  rw [contains, Option.isSome_iff_exists, mem_keys_iff]

theorem mem_values_iff {m : OrderedMap κ ν} {value : ν} :
    value ∈ m.values ↔ ∃ key, m.get? key = some value := by
  simp only [values, get?_eq_some_iff, List.mem_map, Prod.exists, exists_eq_right]

omit [DecidableEq κ] in
theorem keys_nodup (m : OrderedMap κ ν) : m.keys.Nodup := m.nodup_keys

theorem get?_erase (m : OrderedMap κ ν) (key other : κ) :
    (m.erase key).get? other = if other = key then none else m.get? other := by
  rw [Option.ext_iff]
  intro value
  rw [get?_eq_some_iff, erase, List.mem_filter]
  by_cases h : other = key
  · simp [h]
  · simp [h, get?_eq_some_iff]

theorem get?_erase_of_ne (m : OrderedMap κ ν) {key other : κ} (h : other ≠ key) :
    (m.erase key).get? other = m.get? other := by
  rw [get?_erase, if_neg h]

theorem get?_insert_self (m : OrderedMap κ ν) (key : κ) (value : ν) :
    (m.insert key value).get? key = some value := by
  rw [get?_insert, if_pos rfl]

theorem get?_insert_of_ne (m : OrderedMap κ ν) {key other : κ} (value : ν) (h : other ≠ key) :
    (m.insert key value).get? other = m.get? other := by
  rw [get?_insert, if_neg h]

omit [DecidableEq κ] in
theorem keys_mapValues (m : OrderedMap κ ν) (f : κ → ν → ν) : (m.mapValues f).keys = m.keys := by
  simp [keys, mapValues]

theorem get?_mapValues (m : OrderedMap κ ν) (f : κ → ν → ν) (key : κ) :
    (m.mapValues f).get? key = (m.get? key).map (f key) := by
  rw [Option.ext_iff]
  intro value
  rw [get?_eq_some_iff, mapValues, Option.map_eq_some_iff]
  simp only [List.mem_map, Prod.mk.injEq, Prod.exists, get?_eq_some_iff]
  constructor
  · rintro ⟨other, old, hmem, rfl, rfl⟩
    exact ⟨old, hmem, rfl⟩
  · rintro ⟨old, hmem, rfl⟩
    exact ⟨key, old, hmem, rfl, rfl⟩

/-! ### Maps with related values -/

section

variable {κ : Type u} {ν μ : Type v} {R : ν → μ → Prop}

/-- The same keys in the same order, with related values. -/
def Pairs (R : ν → μ → Prop) : List (κ × ν) → List (κ × μ) → Prop :=
  List.Forall₂ fun entry other => entry.1 = other.1 ∧ R entry.2 other.2

def Alike (R : ν → μ → Prop) (m : OrderedMap κ ν) (other : OrderedMap κ μ) : Prop :=
  Pairs R m.entries other.entries

variable {entries : List (κ × ν)} {others : List (κ × μ)} {m : OrderedMap κ ν} {other : OrderedMap κ μ}

theorem alike_empty : Alike R (empty : OrderedMap κ ν) (empty : OrderedMap κ μ) := .nil

variable [DecidableEq κ]

theorem Pairs.lookup (h : Pairs R entries others) (key : κ) :
    Option.Rel R (entries.lookup key) (others.lookup key) := by
  induction h with
  | nil => exact .none
  | cons hentry _ ih =>
    rw [List.lookup_cons, List.lookup_cons, ← hentry.1]
    split
    · exact .some hentry.2
    · exact ih

theorem Pairs.put (h : Pairs R entries others) (key : κ) {value : ν} {value' : μ}
    (hvalue : R value value') :
    Pairs R (OrderedMap.put key value entries) (OrderedMap.put key value' others) := by
  induction h with
  | nil => exact .cons ⟨rfl, hvalue⟩ .nil
  | cons hentry hrest ih =>
    rw [OrderedMap.put, OrderedMap.put, ← hentry.1]
    split
    · exact .cons ⟨rfl, hvalue⟩ hrest
    · exact .cons hentry ih

theorem Alike.get? (h : Alike R m other) (key : κ) : Option.Rel R (m.get? key) (other.get? key) :=
  Pairs.lookup h key

theorem Alike.contains (h : Alike R m other) (key : κ) : m.contains key = other.contains key := by
  have hget := h.get? key
  rw [OrderedMap.contains, OrderedMap.contains]
  generalize m.get? key = found at hget ⊢
  generalize other.get? key = found' at hget ⊢
  cases hget with
  | some _ => rfl
  | none => rfl

theorem Alike.insert (h : Alike R m other) (key : κ) {value : ν} {value' : μ} (hvalue : R value value') :
    Alike R (m.insert key value) (other.insert key value') :=
  Pairs.put h key hvalue

theorem Alike.erase (h : Alike R m other) (key : κ) : Alike R (m.erase key) (other.erase key) := by
  apply List.rel_filter _ h
  intro entry entry' hentry
  simp only [hentry.1]

theorem alike_ofList (h : Pairs R entries others) : Alike R (ofList entries) (ofList others) := by
  have hfold : ∀ (m : OrderedMap κ ν) (other : OrderedMap κ μ), Alike R m other →
      Alike R (entries.foldl (fun m entry => m.insert entry.1 entry.2) m)
        (others.foldl (fun m entry => m.insert entry.1 entry.2) other) := by
    induction h with
    | nil => exact fun _ _ hmaps => hmaps
    | @cons entry entry' rest rest' hentry _ ih =>
      intro m other hmaps
      have hinsert : Alike R (m.insert entry.1 entry.2) (other.insert entry'.1 entry'.2) := by
        rw [← hentry.1]
        exact hmaps.insert _ hentry.2
      exact ih _ _ hinsert
  exact hfold empty empty alike_empty

end

end BundleForge.OrderedMap
