import BundleForge.Text.Segments
import Mathlib.Data.List.Basic
/-!
# Parts of a text

What stands before the first separator holds none, and a text that cannot be cut has none. The last part
of a text ends as the text does. A beginning that a text has can be dropped, and nothing else.
-/

namespace BundleForge.Text

/-- A fact about the characters of a text is decided by going through the text, not through all characters. -/
instance (priority := high) decidableForallMem (text : List Char) (p : Char → Prop) [DecidablePred p] :
    Decidable (∀ c ∈ text, p c) := List.decidableBAll p text

theorem isDigit_of_mem_repr {number : Nat} {c : Char} (hc : c ∈ number.repr.toList) : c.isDigit = true := by
  rw [Nat.toList_repr] at hc
  exact Nat.isDigit_of_mem_toDigits (by decide) (by decide) hc

theorem not_mem_of_cutFirst? {sep : Char} {s before after : List Char}
    (h : cutFirst? sep s = some (before, after)) : sep ∉ before := by
  induction s generalizing before with
  | nil => simp [cutFirst?] at h
  | cons c rest ih =>
    rw [cutFirst?] at h
    split at h
    · obtain ⟨rfl, rfl⟩ := Prod.mk.inj (Option.some.inj h)
      exact List.not_mem_nil
    · rename_i hc
      obtain ⟨⟨b, a⟩, hb, heq⟩ := Option.map_eq_some_iff.1 h
      obtain ⟨rfl, rfl⟩ := Prod.mk.inj heq
      rw [List.mem_cons, not_or]
      exact ⟨Ne.symm hc, ih hb⟩

theorem cutFirst?_eq_none_iff {sep : Char} {s : List Char} : cutFirst? sep s = none ↔ sep ∉ s := by
  induction s with
  | nil => simp [cutFirst?]
  | cons c rest ih =>
    rw [cutFirst?]
    by_cases hc : c = sep
    · simp [hc]
    · rw [if_neg hc, Option.map_eq_none_iff, ih, List.mem_cons, not_or]
      exact ⟨fun hrest => ⟨Ne.symm hc, hrest⟩, And.right⟩

theorem cutFirst?_append {sep : Char} {before : List Char} (h : sep ∉ before) (after : List Char) :
    cutFirst? sep (before ++ sep :: after) = some (before, after) := by
  induction before with
  | nil => rw [List.nil_append, cutFirst?, if_pos rfl]
  | cons c rest ih =>
    rw [List.mem_cons, not_or] at h
    rw [List.cons_append, cutFirst?, if_neg (Ne.symm h.1), ih h.2]
    rfl

/-- What ends a list and holds no separator ends the last part of the list. -/
theorem exists_splitOnP_append {α : Type} {p : α → Bool} {ending : List α}
    (hending : ∀ a ∈ ending, p a = false) (xs : List α) :
    ∃ parts last, (xs ++ ending).splitOnP p = parts ++ [last ++ ending] := by
  induction xs with
  | nil => exact ⟨[], [], List.splitOnP_eq_singleton hending⟩
  | cons x rest ih =>
    obtain ⟨parts, last, h⟩ := ih
    rw [List.cons_append, List.splitOnP_cons_eq_if_modifyHead, h]
    split
    · exact ⟨[] :: parts, last, rfl⟩
    · cases parts with
      | nil => exact ⟨[], x :: last, rfl⟩
      | cons first others => exact ⟨(x :: first) :: others, last, rfl⟩

theorem sublist_of_mem_splitOnP {α : Type} {p : α → Bool} {text part : List α} (h : part ∈ text.splitOnP p) :
    part.Sublist text ∧ ∀ a ∈ part, p a = false := by
  induction text generalizing part with
  | nil =>
    rw [List.splitOnP_nil, List.mem_singleton] at h
    rw [h]
    exact ⟨.slnil, fun _ hmem => absurd hmem List.not_mem_nil⟩
  | cons a rest ih =>
    rw [List.splitOnP_cons_eq_if_modifyHead] at h
    split at h
    · rcases List.mem_cons.1 h with rfl | hrest
      · exact ⟨List.nil_sublist _, fun _ hmem => absurd hmem List.not_mem_nil⟩
      · exact (ih hrest).imp_left (List.Sublist.cons a)
    · rename_i ha
      cases hparts : rest.splitOnP p with
      | nil => simp [hparts] at h
      | cons first others =>
        rw [hparts, List.modifyHead_cons] at h
        rw [hparts] at ih
        rcases List.mem_cons.1 h with rfl | hrest
        · obtain ⟨hsublist, hfree⟩ := ih List.mem_cons_self
          exact ⟨hsublist.cons_cons a, List.forall_mem_cons.2 ⟨Bool.eq_false_iff.2 ha, hfree⟩⟩
        · exact (ih (List.mem_cons_of_mem _ hrest)).imp_left (List.Sublist.cons a)

theorem splitOnP_append_of_free {α : Type} {p : α → Bool} {front : List α} (h : ∀ a ∈ front, p a = false)
    (rest : List α) : (front ++ rest).splitOnP p = (rest.splitOnP p).modifyHead (front ++ ·) := by
  obtain ⟨part, others, hparts⟩ := List.exists_cons_of_ne_nil (List.splitOnP_ne_nil p rest)
  induction front with
  | nil => rw [List.nil_append, hparts, List.modifyHead_cons, List.nil_append]
  | cons a front ih =>
    have hfront := List.forall_mem_cons.1 h
    rw [List.cons_append, List.splitOnP_cons_eq_if_modifyHead, if_neg (by rw [hfront.1]; decide), ih hfront.2, hparts,
      List.modifyHead_cons, List.modifyHead_cons, List.modifyHead_cons, List.cons_append]

theorem splitOn_append_of_not_mem {α : Type} [BEq α] [LawfulBEq α] {sep : α} {front : List α} (h : sep ∉ front)
    (rest : List α) : (front ++ rest).splitOn sep = (rest.splitOn sep).modifyHead (front ++ ·) := by
  have hfree : ∀ a ∈ front, (a == sep) = false :=
    fun a ha => beq_eq_false_iff_ne.2 fun heq => h (heq ▸ ha)
  rw [List.splitOn_eq_splitOnP, List.splitOn_eq_splitOnP, splitOnP_append_of_free hfree]

theorem not_mem_of_mem_splitOn {α : Type} [BEq α] [LawfulBEq α] {sep : α} {text part : List α}
    (h : part ∈ text.splitOn sep) : sep ∉ part := by
  rw [List.splitOn_eq_splitOnP] at h
  exact fun hsep => beq_eq_false_iff_ne.1 ((sublist_of_mem_splitOnP h).2 sep hsep) rfl

theorem flatten_splitOnP {α : Type} (p : α → Bool) (items : List α) :
    (items.splitOnP p).flatten = items.filter (!p ·) := by
  induction items with
  | nil => rfl
  | cons a rest ih =>
    obtain ⟨part, others, hparts⟩ := List.exists_cons_of_ne_nil (List.splitOnP_ne_nil p rest)
    rw [hparts, List.flatten_cons] at ih
    rw [List.splitOnP_cons_eq_if_modifyHead]
    split
    · rename_i ha
      rw [List.flatten_cons, List.nil_append, hparts, List.flatten_cons, ih, List.filter_cons_of_neg (by simp [ha])]
    · rename_i ha
      rw [hparts, List.modifyHead_cons, List.flatten_cons, List.cons_append, ih, List.filter_cons_of_pos (by simp [ha])]

theorem flatMap_concat_splitOn {α : Type} [BEq α] [LawfulBEq α] (sep : α) (text : List α) :
    (text.splitOn sep).flatMap (· ++ [sep]) = text ++ [sep] := by
  induction text with
  | nil => simp
  | cons a rest ih =>
    obtain ⟨part, others, hparts⟩ := List.exists_cons_of_ne_nil (List.splitOn_ne_nil sep rest)
    rw [hparts, List.flatMap_cons] at ih
    rw [List.splitOn_cons_eq_if_modifyHead]
    split
    · rename_i ha
      rw [List.flatMap_cons, List.nil_append, hparts, List.flatMap_cons, ih, beq_iff_eq.1 ha]
      rfl
    · rw [hparts, List.modifyHead_cons, List.flatMap_cons, List.cons_append, List.cons_append, ih]
      rfl

/-- Parts with a separator behind each are found again, and nothing is behind the last separator. -/
theorem splitOn_flatMap_concat {α : Type} [BEq α] [LawfulBEq α] {sep : α} {parts : List (List α)}
    (h : ∀ part ∈ parts, sep ∉ part) : (parts.flatMap (· ++ [sep])).splitOn sep = parts ++ [[]] := by
  induction parts with
  | nil => rfl
  | cons part rest ih =>
    rw [List.forall_mem_cons] at h
    rw [List.flatMap_cons, List.append_assoc, List.singleton_append, List.splitOn_append_cons_self_of_not_mem h.1,
      ih h.2, List.cons_append]

theorem intercalate_cons {α : Type} (sep : α) (first : List α) (rest : List (List α)) :
    [sep].intercalate (first :: rest) = first ++ rest.flatMap (sep :: ·) := by
  induction rest generalizing first with
  | nil => simp
  | cons part others ih => rw [List.intercalate_cons_cons, ih, List.flatMap_cons]; simp

theorem suffix_intercalate {α : Type} (separator last : List α) (parts : List (List α)) :
    last <:+ separator.intercalate (parts ++ [last]) := by
  induction parts with
  | nil => simp
  | cons first rest ih =>
    rw [List.cons_append, List.intercalate_cons_of_ne_nil (List.concat_ne_nil _ _)]
    exact ih.trans (List.suffix_append _ _)

theorem head?_intercalate {α : Type} (separator : List α) {first : List α} (h : first ≠ [])
    (rest : List (List α)) : (separator.intercalate (first :: rest)).head? = first.head? := by
  cases rest with
  | nil => rw [List.intercalate_singleton]
  | cons second others =>
    rw [List.intercalate_cons_cons, List.append_assoc, List.head?_append_of_ne_nil _ h]

theorem suffix_afterLast (sep : Char) (s : List Char) : afterLast sep s <:+ s := by
  rw [afterLast]
  split
  · rename_i before after hcut
    rw [eq_append_of_cutLast? hcut, List.append_cons]
    exact List.suffix_append _ _
  · exact List.suffix_rfl

theorem cutLast?_append {sep : Char} {after : List Char} (h : sep ∉ after) (before : List Char) :
    cutLast? sep (before ++ sep :: after) = some (before, after) := by
  induction before with
  | nil => rw [List.nil_append, cutLast?, cutLast?_eq_none_iff.2 h, if_pos rfl]
  | cons c rest ih => rw [List.cons_append, cutLast?, ih]

theorem afterLast_append {sep : Char} {before after : List Char}
    (hbefore : before = [] ∨ before.getLast? = some sep) (hafter : sep ∉ after) :
    afterLast sep (before ++ after) = after := by
  rcases hbefore with rfl | hlast
  · rw [List.nil_append, afterLast, cutLast?_eq_none_iff.2 hafter]
  · obtain ⟨rest, rfl⟩ := List.getLast?_eq_some_iff.1 hlast
    rw [← List.append_cons, afterLast, cutLast?_append hafter]

/-- A text is its last part, with a beginning that ends with a separator if there is one. -/
theorem exists_append_afterLast (sep : Char) (s : List Char) :
    ∃ before, (before = [] ∨ before.getLast? = some sep) ∧ s = before ++ afterLast sep s ∧
      sep ∉ afterLast sep s := by
  rw [afterLast]
  cases hcut : cutLast? sep s with
  | none => exact ⟨[], Or.inl rfl, rfl, cutLast?_eq_none_iff.1 hcut⟩
  | some parts =>
    obtain ⟨before, after⟩ := parts
    refine ⟨before ++ [sep], Or.inr List.getLast?_concat, ?_, not_mem_of_cutLast? hcut⟩
    rw [eq_append_of_cutLast? hcut, List.append_cons]

theorem append_cons_inj {α : Type} {sep : α} {before before' after after' : List α}
    (hafter : sep ∉ after) (hafter' : sep ∉ after')
    (h : before ++ sep :: after = before' ++ sep :: after') : before = before' ∧ after = after' := by
  have hcut : ∀ {more after after' : List α}, sep ∉ after → sep :: after = more ++ sep :: after' →
      more = [] := by
    intro more after after' hafter heq
    cases more with
    | nil => rfl
    | cons first rest =>
      refine absurd ?_ hafter
      rw [(List.cons.inj heq).2]
      simp
  rcases List.append_eq_append_iff.1 h with ⟨more, rfl, heq⟩ | ⟨more, rfl, heq⟩
  · obtain rfl := hcut hafter heq
    exact ⟨(List.append_nil _).symm, (List.cons.inj heq).2⟩
  · obtain rfl := hcut hafter' heq
    exact ⟨List.append_nil _, (List.cons.inj heq).2.symm⟩

theorem dropBeginning?_append (beginning s : String) :
    dropBeginning? beginning (beginning ++ s) = some s := by
  have hdrop : beginning.toList.isPrefixOf? (beginning ++ s).toList = some s.toList :=
    List.isPrefixOf?_eq_some_iff_append_eq.2 String.toList_append.symm
  rw [dropBeginning?, hdrop, Option.map_some, String.ofList_toList]

theorem dropBeginning?_eq_none {beginning s : String} (h : beginsWith beginning s = false) :
    dropBeginning? beginning s = none := by
  rw [beginsWith, ← List.isSome_isPrefixOf?_eq_isPrefixOf, Option.isSome_eq_false_iff,
    Option.isNone_iff_eq_none] at h
  rw [dropBeginning?, h, Option.map_none]

end BundleForge.Text
