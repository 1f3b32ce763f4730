/-!
# Cutting text at separators

Paths, type names, locales and file names are all read by cutting a text at a separator: at every
one of them (`segments`), or at the last one (`cutLast?`). Both lose nothing but the separators,
which `intercalate_segments` and `eq_append_of_cutLast?` say.
-/

namespace BundleForge.Text

def segments (sep : Char) (s : String) : List String :=
  (s.toList.splitOn sep).map String.ofList

def segmentsWhere (sep : Char → Bool) (s : String) : List String :=
  (s.toList.splitOnP sep).map String.ofList

/-- The parts before and after the first separator, if there is one. -/
def cutFirst? (sep : Char) : List Char → Option (List Char × List Char)
  | [] => none
  | c :: rest =>
    if c = sep then some ([], rest)
    else (cutFirst? sep rest).map fun (before, after) => (c :: before, after)

/-- The parts before and after the last separator, if there is one. -/
def cutLast? (sep : Char) : List Char → Option (List Char × List Char)
  | [] => none
  | c :: rest =>
    match cutLast? sep rest with
    | some (before, after) => some (c :: before, after)
    | none => if c = sep then some ([], rest) else none

/-- The part after the last separator, the whole text when there is none. -/
def afterLast (sep : Char) (s : List Char) : List Char :=
  match cutLast? sep s with
  | some (_, after) => after
  | none => s

def dropBeginning? (beginning s : String) : Option String :=
  (beginning.toList.isPrefixOf? s.toList).map String.ofList

def beginsWith (beginning s : String) : Bool :=
  beginning.toList.isPrefixOf s.toList

theorem eq_append_of_cutFirst? {sep : Char} {s before after : List Char}
    (h : cutFirst? sep s = some (before, after)) : s = before ++ sep :: after := by
  induction s generalizing before with
  | nil => simp [cutFirst?] at h
  | cons c rest ih =>
    rw [cutFirst?] at h
    split at h
    · rename_i hc
      obtain ⟨rfl, rfl⟩ := Prod.mk.inj (Option.some.inj h)
      rw [hc, List.nil_append]
    · obtain ⟨⟨b, a⟩, hb, heq⟩ := Option.map_eq_some_iff.1 h
      obtain ⟨rfl, rfl⟩ := Prod.mk.inj heq
      rw [ih hb, List.cons_append]

theorem eq_append_of_cutLast? {sep : Char} {s before after : List Char}
    (h : cutLast? sep s = some (before, after)) : s = before ++ sep :: after := by
  induction s generalizing before with
  | nil => simp [cutLast?] at h
  | cons c rest ih =>
    rw [cutLast?] at h
    split at h
    · rename_i b a hb
      obtain ⟨rfl, rfl⟩ := Prod.mk.inj (Option.some.inj h)
      rw [ih hb, List.cons_append]
    · split at h
      · rename_i hc
        obtain ⟨rfl, rfl⟩ := Prod.mk.inj (Option.some.inj h)
        rw [hc, List.nil_append]
      · simp at h

theorem cutLast?_eq_none_iff {sep : Char} {s : List Char} : cutLast? sep s = none ↔ sep ∉ s := by
  induction s with
  | nil => simp [cutLast?]
  | cons c rest ih =>
    rw [cutLast?]
    split
    · rename_i h
      have : sep ∈ rest := by
        rw [eq_append_of_cutLast? h]
        simp
      simp [this]
    · rename_i h
      have hrest := ih.1 h
      by_cases hc : c = sep
      · simp [hc]
      · simp [hc, hrest, Ne.symm hc]

theorem not_mem_of_cutLast? {sep : Char} {s before after : List Char}
    (h : cutLast? sep s = some (before, after)) : sep ∉ after := by
  induction s generalizing before with
  | nil => simp [cutLast?] at h
  | cons c rest ih =>
    rw [cutLast?] at h
    split at h
    · rename_i b a hb
      obtain ⟨rfl, rfl⟩ := Prod.mk.inj (Option.some.inj h)
      exact ih hb
    · rename_i hnone
      split at h
      · obtain ⟨rfl, rfl⟩ := Prod.mk.inj (Option.some.inj h)
        exact cutLast?_eq_none_iff.1 hnone
      · simp at h

end BundleForge.Text
