/-!
# Maps that remember the order of insertion

A map is a list of entries with distinct keys, in the order in which the keys were first inserted. A
later value for a key takes the place of the earlier one. `keys_insert` and `get?_insert` say all
that insertion does to the two views of a map, its keys and its answers.
-/

namespace BundleForge

universe u v

structure OrderedMap (κ : Type u) (ν : Type v) where
  entries : List (κ × ν)
  nodup_keys : (entries.map Prod.fst).Nodup

namespace OrderedMap

variable {κ : Type u} {ν : Type v} [DecidableEq κ]

def empty : OrderedMap κ ν := ⟨[], .nil⟩

instance : Inhabited (OrderedMap κ ν) := ⟨empty⟩

def keys (m : OrderedMap κ ν) : List κ := m.entries.map Prod.fst

def values (m : OrderedMap κ ν) : List ν := m.entries.map Prod.snd

def get? (m : OrderedMap κ ν) (key : κ) : Option ν := m.entries.lookup key

def contains (m : OrderedMap κ ν) (key : κ) : Bool := (m.get? key).isSome

def put (key : κ) (value : ν) : List (κ × ν) → List (κ × ν)
  | [] => [(key, value)]
  | entry :: rest =>
    if entry.1 = key then (key, value) :: rest else entry :: put key value rest

theorem map_fst_put (key : κ) (value : ν) (entries : List (κ × ν)) :
    (put key value entries).map Prod.fst =
      if key ∈ entries.map Prod.fst then entries.map Prod.fst
      else entries.map Prod.fst ++ [key] := by
  induction entries with
  | nil => simp [put]
  | cons entry rest ih =>
    rw [put]
    by_cases h : entry.1 = key
    · simp [h]
    · rw [if_neg h, List.map_cons, ih]
      by_cases hrest : key ∈ rest.map Prod.fst
      · rw [if_pos hrest, if_pos (by simp [hrest]), List.map_cons]
      · rw [if_neg hrest, if_neg, List.map_cons, List.cons_append]
        rw [List.map_cons, List.mem_cons]
        rintro (heq | hmem)
        · exact h heq.symm
        · exact hrest hmem

theorem nodup_map_fst_put (key : κ) (value : ν) {entries : List (κ × ν)}
    (h : (entries.map Prod.fst).Nodup) : ((put key value entries).map Prod.fst).Nodup := by
  rw [map_fst_put]
  split
  · exact h
  · rename_i hkey
    rw [List.nodup_append]
    refine ⟨h, by simp, fun a ha b hb hab => ?_⟩
    rw [List.mem_singleton] at hb
    exact hkey (hb ▸ hab ▸ ha)

def insert (m : OrderedMap κ ν) (key : κ) (value : ν) : OrderedMap κ ν :=
  ⟨put key value m.entries, nodup_map_fst_put key value m.nodup_keys⟩

def ofList (entries : List (κ × ν)) : OrderedMap κ ν :=
  entries.foldl (fun m entry => m.insert entry.1 entry.2) empty

def erase (m : OrderedMap κ ν) (key : κ) : OrderedMap κ ν :=
  ⟨m.entries.filter fun entry => entry.1 ≠ key,
   m.nodup_keys.sublist (List.filter_sublist.map Prod.fst)⟩

def mapValues (m : OrderedMap κ ν) (f : κ → ν → ν) : OrderedMap κ ν :=
  ⟨m.entries.map fun entry => (entry.1, f entry.1 entry.2),
   by simpa [List.map_map, Function.comp_def] using m.nodup_keys⟩

omit [DecidableEq κ] in
@[simp] theorem keys_empty : (empty : OrderedMap κ ν).keys = [] := rfl

@[simp] theorem get?_empty (key : κ) : (empty : OrderedMap κ ν).get? key = none := rfl

theorem keys_insert (m : OrderedMap κ ν) (key : κ) (value : ν) :
    (m.insert key value).keys = if key ∈ m.keys then m.keys else m.keys ++ [key] :=
  map_fst_put key value m.entries

theorem put_of_not_mem {key : κ} {value : ν} {entries : List (κ × ν)}
    (h : key ∉ entries.map Prod.fst) : put key value entries = entries ++ [(key, value)] := by
  induction entries with
  | nil => rfl
  | cons entry rest ih =>
    rw [List.map_cons, List.mem_cons, not_or] at h
    rw [put, if_neg (Ne.symm h.1), ih h.2, List.cons_append]

theorem entries_insert_of_not_mem {m : OrderedMap κ ν} {key : κ} (h : key ∉ m.keys) {value : ν} :
    (m.insert key value).entries = m.entries ++ [(key, value)] :=
  put_of_not_mem h

theorem values_insert_of_not_mem {m : OrderedMap κ ν} {key : κ} (h : key ∉ m.keys) {value : ν} :
    (m.insert key value).values = m.values ++ [value] := by
  rw [values, entries_insert_of_not_mem h, List.map_append, List.map_singleton, values]

theorem lookup_put (key : κ) (value : ν) (entries : List (κ × ν)) (other : κ) :
    (put key value entries).lookup other =
      if other = key then some value else entries.lookup other := by
  induction entries with
  | nil =>
    by_cases h : other = key
    · simp [put, h]
    · simp [put, List.lookup_cons, beq_false_of_ne h, h]
  | cons entry rest ih =>
    rw [put]
    by_cases hentry : entry.1 = key
    · by_cases h : other = key
      · simp [hentry, h]
      · have hother : (other == entry.1) = false :=
          beq_false_of_ne fun heq => h (heq.trans hentry)
        rw [if_pos hentry, if_neg h, List.lookup_cons, List.lookup_cons, hother,
          beq_false_of_ne h]
    · rw [if_neg hentry, List.lookup_cons, List.lookup_cons, ih]
      by_cases h : other = key
      · have hother : (key == entry.1) = false := beq_false_of_ne (Ne.symm hentry)
        simp [h, hother]
      · simp [h]

theorem get?_insert (m : OrderedMap κ ν) (key : κ) (value : ν) (other : κ) :
    (m.insert key value).get? other = if other = key then some value else m.get? other :=
  lookup_put key value m.entries other

end OrderedMap

end BundleForge
