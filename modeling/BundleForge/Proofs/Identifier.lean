import BundleForge.Identifier
import BundleForge.Identifier.Fresh
import BundleForge.Identifier.Words
import BundleForge.Proofs.Text
import Mathlib
/-!
# Spellings of a name

A name is spelled anew from its words. That brings in no character but the underscore and changes none but in its
case, so that a spelling stays within every class of characters that has both. What a spelling begins with is the
first character of the name that separates no words.
-/

namespace BundleForge.Identifier

/-! ### Classes of characters -/

/-- A class of characters that changing the case of a character does not lead out of. -/
structure CaseClosed (p : Char → Prop) : Prop where
  lower : ∀ {c : Char}, p c → p c.toLower
  upper : ∀ {c : Char}, p c → p c.toUpper

theorem isAlpha_eq_false_of_isDigit {c : Char} (h : c.isDigit = true) : c.isAlpha = false := by
  rw [Bool.eq_false_iff]
  intro halpha
  simp only [Char.isAlpha, Char.isUpper, Char.isLower, Char.isDigit, Bool.or_eq_true, Bool.and_eq_true,
    decide_eq_true_eq, ge_iff_le, UInt32.le_iff_toNat_le, UInt32.reduceToNat, Char.reduceVal] at h halpha
  omega

theorem isDigit_toLower (c : Char) : c.toLower.isDigit = c.isDigit := by
  by_cases hupper : c.isUpper = true
  · have halpha : c.isAlpha = true := by rw [Char.isAlpha, hupper, Bool.true_or]
    have hno : ∀ {d : Char}, d.isAlpha = true → d.isDigit = false := fun hd =>
      Bool.eq_false_iff.2 fun hdigit => by simp [isAlpha_eq_false_of_isDigit hdigit] at hd
    rw [hno halpha, hno (by rw [Char.isAlpha_toLower_eq_isAlpha, halpha])]
  · rw [Char.toLower_eq_of_not_isUpper hupper]

theorem isDigit_toUpper (c : Char) : c.toUpper.isDigit = c.isDigit := by
  rw [← isDigit_toLower c.toUpper, Char.toLower_toUpper_eq_toLower, isDigit_toLower]

theorem eq_of_toLower_eq {c d : Char} (hd : d.isAlpha = false) (h : c.toLower = d) : c = d := by
  have halpha : c.isAlpha = false := by rw [← Char.isAlpha_toLower_eq_isAlpha, h, hd]
  have hupper : ¬ c.isUpper = true := fun hupper => by simp [Char.isAlpha, hupper] at halpha
  rwa [Char.toLower_eq_of_not_isUpper hupper] at h

theorem eq_of_toUpper_eq {c d : Char} (hd : d.isAlpha = false) (h : c.toUpper = d) : c = d := by
  have halpha : c.isAlpha = false := by rw [← Char.isAlpha_toUpper_eq_isAlpha, h, hd]
  have hlower : ¬ c.isLower = true := fun hlower => by simp [Char.isAlpha, hlower] at halpha
  rwa [Char.toUpper_eq_of_not_isLower hlower] at h

theorem canContinue_iff {c : Char} : canContinue c = true ↔ c.isAlpha = true ∨ c.isDigit = true ∨ c = '_' := by
  rw [canContinue, Char.isAlphanum, Bool.or_eq_true, Bool.or_eq_true, beq_iff_eq, or_assoc]

theorem caseClosed_canContinue : CaseClosed (canContinue · = true) where
  lower {c} h := by
    rw [canContinue_iff] at h ⊢
    rw [Char.isAlpha_toLower_eq_isAlpha, isDigit_toLower]
    exact h.imp_right (Or.imp_right fun hsep => by rw [hsep]; rfl)
  upper {c} h := by
    rw [canContinue_iff] at h ⊢
    rw [Char.isAlpha_toUpper_eq_isAlpha, isDigit_toUpper]
    exact h.imp_right (Or.imp_right fun hsep => by rw [hsep]; rfl)

/-! ### The characters of a spelling -/

section Characters

variable {p : Char → Prop} {name : List Char}

/-- A word is made of characters of the name that separate no words, in lower case. -/
theorem exists_of_mem_word {word : List Char} (hword : word ∈ words name) {c : Char} (hc : c ∈ word) :
    ∃ d ∈ name, isSeparator d = false ∧ c = d.toLower := by
  obtain ⟨part, hpart, hmem⟩ := List.mem_flatMap.1 hword
  obtain ⟨run, hrun, rfl⟩ := List.mem_map.1 hmem
  obtain ⟨d, hd, rfl⟩ := List.mem_map.1 hc
  obtain ⟨hsublist, hfree⟩ := Text.sublist_of_mem_splitOnP hpart
  have hin : d ∈ part := by
    rw [← List.flatten_splitBy (fun previous c => !startsWord previous c) part]
    exact List.mem_flatten_of_mem hrun hd
  exact ⟨d, hsublist.subset hin, hfree d hin, rfl⟩

theorem forall_mem_word (hp : CaseClosed p) (h : ∀ c ∈ name, p c) {word : List Char} (hword : word ∈ words name) :
    ∀ c ∈ word, p c := by
  intro c hc
  obtain ⟨d, hd, -, rfl⟩ := exists_of_mem_word hword hc
  exact hp.lower (h d hd)

theorem forall_mem_intercalate {separator : List Char} (hseparator : ∀ c ∈ separator, p c)
    {parts : List (List Char)} (h : ∀ part ∈ parts, ∀ c ∈ part, p c) : ∀ c ∈ separator.intercalate parts, p c := by
  induction parts with
  | nil => exact fun c hc => absurd hc List.not_mem_nil
  | cons first rest ih =>
    rw [List.forall_mem_cons] at h
    cases rest with
    | nil =>
      rw [List.intercalate_singleton]
      exact h.1
    | cons second others =>
      rw [List.intercalate_cons_cons, List.forall_mem_append, List.forall_mem_append]
      exact ⟨⟨h.1, hseparator⟩, ih h.2⟩

theorem forall_mem_snake (hp : CaseClosed p) (hsep : p '_') (h : ∀ c ∈ name, p c) : ∀ c ∈ snake name, p c :=
  forall_mem_intercalate (List.forall_mem_singleton.2 hsep) fun _ hword => forall_mem_word hp h hword

theorem dot_not_mem_snake (name : List Char) : '.' ∉ snake name := by
  have hwords : ∀ word ∈ words name, ∀ c ∈ word, c ≠ '.' := by
    intro word hword c hc hdot
    obtain ⟨d, -, hsep, hlower⟩ := exists_of_mem_word hword hc
    rw [eq_of_toLower_eq (by decide) (hlower.symm.trans hdot)] at hsep
    exact absurd hsep (by decide)
  have hchars : ∀ c ∈ snake name, c ≠ '.' := forall_mem_intercalate (by decide) hwords
  exact fun hdot => hchars '.' hdot rfl

theorem forall_mem_screaming (hp : CaseClosed p) (hsep : p '_') (h : ∀ c ∈ name, p c) :
    ∀ c ∈ screaming name, p c := by
  rw [screaming, List.forall_mem_map]
  exact fun c hc => hp.upper (forall_mem_snake hp hsep h c hc)

theorem forall_mem_camel (hp : CaseClosed p) (h : ∀ c ∈ name, p c) : ∀ c ∈ camel name, p c := by
  intro c hc
  obtain ⟨word, hword, hmem⟩ := List.mem_flatMap.1 hc
  have hchars := forall_mem_word hp h hword
  cases word with
  | nil => exact absurd hmem List.not_mem_nil
  | cons first rest =>
    rw [List.forall_mem_cons] at hchars
    rcases List.mem_cons.1 hmem with rfl | hrest
    · exact hp.upper hchars.1
    · exact hchars.2 c hrest

theorem exists_fresh_eq (used : List String) (separator base : String) :
    ∃ number, fresh used separator base = numbered separator base number := by
  have hmem := List.mem_of_find?_eq_some (find?_candidates used separator base)
  obtain ⟨number, -, hnumber⟩ := List.mem_map.1 hmem
  exact ⟨number, hnumber.symm⟩

theorem exists_numbered_eq (separator base : String) (number : Nat) :
    ∃ rest, numbered separator base number = base ++ rest := by
  cases number with
  | zero => exact ⟨"", String.append_empty.symm⟩
  | succ number => exact ⟨separator ++ number.repr, String.append_assoc⟩

theorem forall_mem_numbered {separator base : String} (hdigit : ∀ {c : Char}, c.isDigit = true → p c)
    (hseparator : ∀ c ∈ separator.toList, p c) (hbase : ∀ c ∈ base.toList, p c) (number : Nat) :
    ∀ c ∈ (numbered separator base number).toList, p c := by
  cases number with
  | zero => exact hbase
  | succ number =>
    rw [numbered, String.toList_append, String.toList_append, List.forall_mem_append, List.forall_mem_append]
    exact ⟨⟨hbase, hseparator⟩, fun c hc => hdigit (Text.isDigit_of_mem_repr hc)⟩

end Characters

/-! ### What a spelling begins with -/

/-- The words in front of a separator and behind it have nothing to do with each other. -/
theorem words_append_cons_of_isSeparator (name : List Char) {c : Char} (h : isSeparator c = true) (rest : List Char) :
    words (name ++ c :: rest) = words name ++ words rest := by
  rw [words, List.splitOnP_append_cons name rest h, List.flatMap_append, words, words]

theorem words_cons_of_isSeparator {c : Char} (h : isSeparator c = true) (rest : List Char) :
    words (c :: rest) = words rest :=
  words_append_cons_of_isSeparator [] h rest

theorem exists_words_cons {c : Char} (h : isSeparator c = false) (rest : List Char) :
    ∃ word others, words (c :: rest) = (c.toLower :: word) :: others := by
  rw [words, List.splitOnP_cons_eq_if_modifyHead, if_neg (by rw [h]; decide)]
  cases hparts : rest.splitOnP isSeparator with
  | nil => exact absurd hparts (List.splitOnP_ne_nil _ _)
  | cons part others =>
    have hflatten := List.flatten_splitBy (fun previous c => !startsWord previous c) (c :: part)
    have hnonempty := List.nil_notMem_splitBy (fun previous c => !startsWord previous c) (c :: part)
    rw [List.modifyHead_cons, List.flatMap_cons]
    cases hruns : (c :: part).splitBy fun previous c => !startsWord previous c with
    | nil => simp [hruns] at hflatten
    | cons run runs =>
      rw [hruns] at hflatten hnonempty
      cases run with
      | nil => exact absurd List.mem_cons_self hnonempty
      | cons d run =>
        obtain ⟨rfl, -⟩ := List.cons.inj hflatten
        exact ⟨run.map Char.toLower, _, rfl⟩

/-- The first character of a name that separates no words. -/
def initial? (name : List Char) : Option Char :=
  (name.dropWhile isSeparator).head?

theorem initial?_cons_of_pos {c : Char} (h : isSeparator c = true) (rest : List Char) :
    initial? (c :: rest) = initial? rest := by
  rw [initial?, initial?, List.dropWhile_cons_of_pos h]

theorem initial?_cons_of_neg {c : Char} (h : ¬ isSeparator c = true) (rest : List Char) :
    initial? (c :: rest) = some c := by
  rw [initial?, List.dropWhile_cons_of_neg h, List.head?_cons]

/-- A name without words is all separators; any other has a first word, which begins with the initial. -/
theorem words_eq_nil_or (name : List Char) :
    (words name = [] ∧ initial? name = none) ∨
    ∃ c word others, words name = (c.toLower :: word) :: others ∧ initial? name = some c ∧
      isSeparator c = false := by
  induction name with
  | nil => exact .inl ⟨rfl, rfl⟩
  | cons c rest ih =>
    by_cases hsep : isSeparator c = true
    · rwa [words_cons_of_isSeparator hsep, initial?_cons_of_pos hsep]
    · obtain ⟨word, others, hwords⟩ := exists_words_cons (Bool.eq_false_iff.2 hsep) rest
      exact .inr ⟨c, word, others, hwords, initial?_cons_of_neg hsep rest, Bool.eq_false_iff.2 hsep⟩

theorem initial?_eq_none_iff {name : List Char} : initial? name = none ↔ ∀ c ∈ name, isSeparator c = true := by
  rw [initial?, List.head?_eq_none_iff, List.dropWhile_eq_nil_iff]

theorem initial?_append (name rest : List Char) : initial? (name ++ rest) = (initial? name).or (initial? rest) := by
  induction name with
  | nil => rfl
  | cons c name ih =>
    by_cases hsep : isSeparator c = true
    · rwa [List.cons_append, initial?_cons_of_pos hsep, initial?_cons_of_pos hsep]
    · rw [List.cons_append, initial?_cons_of_neg hsep, initial?_cons_of_neg hsep]
      rfl

section Initials

variable (name : List Char)

theorem head?_snake : (snake name).head? = (initial? name).map Char.toLower := by
  rcases words_eq_nil_or name with ⟨hwords, hinitial⟩ | ⟨c, word, others, hwords, hinitial, -⟩
  · rw [snake, hwords, hinitial]
    rfl
  · rw [snake, hwords, hinitial, Text.head?_intercalate _ (List.cons_ne_nil _ _)]
    rfl

theorem head?_screaming : (screaming name).head? = (initial? name).map Char.toUpper := by
  rw [screaming, List.head?_map, head?_snake, Option.map_map]
  exact congrArg (Option.map · _) (funext Char.toUpper_toLower_eq_toUpper)

theorem head?_camel : (camel name).head? = (initial? name).map Char.toUpper := by
  rcases words_eq_nil_or name with ⟨hwords, hinitial⟩ | ⟨c, word, others, hwords, hinitial, -⟩
  · rw [camel, hwords, hinitial]
    rfl
  · rw [camel, hwords, hinitial, List.flatMap_cons, capitalize, Char.toUpper_toLower_eq_toUpper]
    rfl

end Initials

/-! ### Identifiers -/

def beginsWithDigit (name : String) : Bool :=
  name.toList.head?.any Char.isDigit

/-- A name whose words begin with a digit, as those of `_1` and `_2nd_edition` do. -/
def isNumeric (name : String) : Bool :=
  (initial? name.toList).any Char.isDigit

theorem canStart_iff {c : Char} : canStart c = true ↔ canContinue c = true ∧ c.isDigit = false := by
  rw [canStart, canContinue_iff, Bool.or_eq_true, beq_iff_eq]
  constructor
  · rintro (halpha | rfl)
    · refine ⟨.inl halpha, Bool.eq_false_iff.2 fun hdigit => ?_⟩
      rw [isAlpha_eq_false_of_isDigit hdigit] at halpha
      exact Bool.false_ne_true halpha
    · exact ⟨.inr (.inr rfl), rfl⟩
  · rintro ⟨halpha | hdigit | hsep, hno⟩
    · exact .inl halpha
    · rw [hdigit] at hno
      exact absurd hno.symm Bool.false_ne_true
    · exact .inr hsep

theorem isValid_iff {name : String} :
    isValid name = true ↔ name ≠ "" ∧ (∀ c ∈ name.toList, canContinue c = true) ∧
      beginsWithDigit name = false ∧ name ∉ "_" :: keywords := by
  rw [isValid, beginsWithDigit, List.mem_cons, not_or, ne_eq, ← String.toList_eq_nil_iff]
  cases name.toList with
  | nil => simp
  | cons first rest =>
    simp only [Bool.and_eq_true, List.all_eq_true, canStart_iff, List.forall_mem_cons, bne_iff_ne,
      Bool.not_eq_true', List.contains_eq_mem, decide_eq_false_iff_not, List.head?_cons, Option.any_some]
    tauto

/-- A name that can begin an identifier, if something follows it. -/
structure Fits (name : String) : Prop where
  body : ∀ c ∈ name.toList, canContinue c = true
  beginning : beginsWithDigit name = false

theorem fits_of_isValid {name : String} (h : isValid name = true) : Fits name :=
  ⟨(isValid_iff.1 h).2.1, (isValid_iff.1 h).2.2.1⟩

end BundleForge.Identifier
