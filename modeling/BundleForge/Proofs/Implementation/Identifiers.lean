import BundleForge.Proofs.Field
import BundleForge.Proofs.Implementation.Distinct
import BundleForge.Proofs.Manifest.Names
import Mathlib
/-!
# Names of a module as identifiers

A name that is an identifier has its underscores in front dropped when it is spelled in another case. What is left is
an identifier again unless it begins with a digit; keywords are out of reach, since a static has no lower-case letters
but those of `field`, and every other name that is made up has an underscore or an `I`.
-/

namespace BundleForge

namespace Identifier

variable {name : String} {c : Char}

theorem isValid_eq (hne : name ≠ "") (hbody : ∀ c ∈ name.toList, canContinue c = true)
    (hkeyword : name ∉ "_" :: keywords) : isValid name = !beginsWithDigit name := by
  rw [Bool.eq_iff_iff, isValid_iff, Bool.not_eq_true']
  exact ⟨fun h => h.2.2.1, fun h => ⟨hne, hbody, h, hkeyword⟩⟩

/-- A name with a character that no word among these has is none of them. -/
theorem not_mem_of_char {words : List String} (hwords : ∀ word ∈ words, c ∉ word.toList) (hc : c ∈ name.toList) :
    name ∉ words :=
  fun h => hwords name h hc

theorem not_mem_keywords_of_I (h : 'I' ∈ name.toList) : name ∉ "_" :: keywords :=
  not_mem_of_char (by decide) h

theorem not_mem_keywords_of_underscore (h : '_' ∈ name.toList) (hne : name ≠ "_") : name ∉ "_" :: keywords := by
  rw [List.mem_cons, not_or]
  exact ⟨hne, not_mem_of_char (by decide) h⟩

theorem not_mem_keywords_of_upper (h : ∀ c ∈ name.toList, c.isLower = false) (hne : name ≠ "_") :
    name ∉ "_" :: keywords := by
  rw [List.mem_cons, not_or]
  refine ⟨hne, fun hmem => ?_⟩
  have hall : ∀ word ∈ keywords, word.toList.any Char.isLower = true := by decide
  obtain ⟨c, hc, hlower⟩ := List.any_eq_true.1 (hall name hmem)
  rw [h c hc] at hlower
  exact Bool.false_ne_true hlower

theorem beginsWithDigit_append {name : String} (h : name ≠ "") (rest : String) :
    beginsWithDigit (name ++ rest) = beginsWithDigit name := by
  rw [beginsWithDigit, beginsWithDigit, String.toList_append,
    List.head?_append_of_ne_nil _ fun hnil => h (String.toList_eq_nil_iff.1 hnil)]

theorem beginsWithDigit_numbered {separator base : String} (h : base ≠ "") (number : Nat) :
    beginsWithDigit (numbered separator base number) = beginsWithDigit base := by
  obtain ⟨rest, hrest⟩ := exists_numbered_eq separator base number
  rw [hrest, beginsWithDigit_append h]

theorem numbered_ne_empty {separator base : String} (h : base ≠ "") (number : Nat) :
    numbered separator base number ≠ "" := by
  obtain ⟨rest, hrest⟩ := exists_numbered_eq separator base number
  rw [hrest]
  exact fun hempty => h (String.append_eq_empty_iff.1 hempty).1

theorem any_isDigit_toUpper (initial : Option Char) :
    (initial.map Char.toUpper).any Char.isDigit = initial.any Char.isDigit := by
  cases initial with
  | none => rfl
  | some c => exact isDigit_toUpper c

theorem beginsWithDigit_toScreamingCase (name : String) :
    beginsWithDigit (toScreamingCase name) = isNumeric name := by
  rw [beginsWithDigit, toScreamingCase, String.toList_ofList, head?_screaming, any_isDigit_toUpper, isNumeric]

theorem beginsWithDigit_holder (name : String) :
    beginsWithDigit (toCamelCase name ++ "Initializer") = isNumeric name := by
  rw [beginsWithDigit, isNumeric, String.toList_append, List.head?_append, toCamelCase, String.toList_ofList,
    head?_camel]
  cases initial? name.toList with
  | none => rfl
  | some c => exact isDigit_toUpper c

theorem toUpper_ne_underscore (h : isSeparator c = false) : c.toUpper ≠ '_' := by
  intro hupper
  rw [eq_of_toUpper_eq (by decide) hupper] at h
  exact absurd h (by decide)

theorem toScreamingCase_ne_underscore (name : String) : toScreamingCase name ≠ "_" := by
  intro h
  have hhead := head?_screaming name.toList
  rw [← String.toList_ofList (l := screaming name.toList), ← toScreamingCase, h] at hhead
  rcases words_eq_nil_or name.toList with ⟨-, hnone⟩ | ⟨c, word, others, -, hinitial, hsep⟩
  · rw [hnone] at hhead
    exact absurd hhead (by decide)
  · rw [hinitial] at hhead
    exact toUpper_ne_underscore hsep (Option.some.inj hhead).symm

end Identifier

open Identifier

namespace FieldRegistry

variable {request : FieldRequest}

/-- Asked for under a name with the characters of an identifier, a static gets an identifier unless the words of the
name begin with a digit. -/
theorem isValid_numbered_baseName (hstatic : request.isStatic = true)
    (hbody : ∀ c ∈ request.name.toList, canContinue c = true) (number : Nat) :
    isValid (numbered "_" (baseName request) number) = !isNumeric request.name := by
  have hscreaming : ∀ c ∈ (toScreamingCase request.name).toList, canContinue c = true := by
    rw [toScreamingCase, String.toList_ofList]
    exact forall_mem_screaming caseClosed_canContinue rfl hbody
  have hbase : baseName request ≠ "" ∧ (∀ c ∈ (baseName request).toList, canContinue c = true) ∧
      beginsWithDigit (baseName request) = isNumeric request.name ∧ baseName request ∉ "_" :: keywords := by
    rw [baseName, if_pos hstatic, ← beginsWithDigit_toScreamingCase]
    by_cases hempty : toScreamingCase request.name = ""
    · rw [if_pos hempty, hempty]
      decide
    · rw [if_neg hempty]
      refine ⟨hempty, hscreaming, rfl, not_mem_keywords_of_upper ?_ (toScreamingCase_ne_underscore _)⟩
      intro c hc
      rw [toScreamingCase, String.toList_ofList] at hc
      exact Bool.eq_false_iff.2 fun hlower => not_mem_screaming hlower _ hc
  have hkeyword : numbered "_" (baseName request) number ∉ "_" :: keywords := by
    cases number with
    | zero => exact hbase.2.2.2
    | succ number =>
      rw [numbered, String.append_assoc]
      refine not_mem_keywords_of_underscore (by simp) fun h => ?_
      have hlength := congrArg String.length h
      have hpos : (baseName request).length ≠ 0 := fun hzero => hbase.1 (String.length_eq_zero_iff.1 hzero)
      simp only [String.length_append] at hlength
      omega
  have hdigit : ∀ {c : Char}, c.isDigit = true → canContinue c = true := fun h => canContinue_iff.2 (.inr (.inl h))
  rw [isValid_eq (numbered_ne_empty hbase.1 number) (forall_mem_numbered hdigit (by decide) hbase.2.1 number) hkeyword,
    beginsWithDigit_numbered hbase.1, hbase.2.2.1]

end FieldRegistry

namespace Implementation

theorem isValid_numbered_holder {accessor : String} (hbody : ∀ c ∈ accessor.toList, canContinue c = true)
    (number : Nat) :
    isValid (numbered "" (toCamelCase accessor ++ "Initializer") number) = !isNumeric accessor := by
  have hbase : toCamelCase accessor ++ "Initializer" ≠ "" := fun h =>
    absurd (String.append_eq_empty_iff.1 h).2 (by decide)
  have hcamel : ∀ c ∈ (toCamelCase accessor ++ "Initializer").toList, canContinue c = true := by
    rw [String.toList_append, List.forall_mem_append, toCamelCase, String.toList_ofList]
    exact ⟨forall_mem_camel caseClosed_canContinue hbody, by decide⟩
  have hdigit : ∀ {c : Char}, c.isDigit = true → canContinue c = true := fun h => canContinue_iff.2 (.inr (.inl h))
  have hI : 'I' ∈ (numbered "" (toCamelCase accessor ++ "Initializer") number).toList := by
    obtain ⟨rest, hrest⟩ := exists_numbered_eq "" (toCamelCase accessor ++ "Initializer") number
    rw [hrest, String.toList_append, String.toList_append]
    exact List.mem_append_left _ (List.mem_append_right _ (by decide))
  rw [isValid_eq (numbered_ne_empty hbase number) (forall_mem_numbered hdigit (by decide) hcamel number)
    (not_mem_keywords_of_I hI), beginsWithDigit_numbered hbase, beginsWithDigit_holder]

theorem isValid_initializer {accessor : String} (h : isValid accessor = true) :
    isValid (accessor ++ "_initializer") = true := by
  obtain ⟨hne, hbody, hbegins, -⟩ := isValid_iff.1 h
  have hunderscore : '_' ∈ (accessor ++ "_initializer").toList := by
    rw [String.toList_append]
    exact List.mem_append_right _ (by decide)
  have hz : 'z' ∈ (accessor ++ "_initializer").toList := by
    rw [String.toList_append]
    exact List.mem_append_right _ (by decide)
  refine isValid_iff.2 ⟨fun hempty => hne (String.append_eq_empty_iff.1 hempty).1, ?_, ?_,
    not_mem_keywords_of_underscore hunderscore fun heq => absurd (heq ▸ hz) (by decide)⟩
  · rw [String.toList_append, List.forall_mem_append]
    exact ⟨hbody, by decide⟩
  · rw [beginsWithDigit_append hne, hbegins]

theorem isValid_moduleName {simpleName : String} (h : ∀ c ∈ simpleName.toList, canContinue c = true) :
    isValid ("__" ++ toSnakeCase simpleName) = true := by
  have hchars : ("__" ++ toSnakeCase simpleName).toList = '_' :: '_' :: snake simpleName.toList := by
    rw [String.toList_append, toSnakeCase, String.toList_ofList (l := snake simpleName.toList)]
    rfl
  have hne : "__" ++ toSnakeCase simpleName ≠ "_" := by
    rw [ne_eq, ← String.toList_inj, hchars]
    exact fun heq => List.cons_ne_nil _ _ (List.cons.inj heq).2
  have hsnake : ∀ c ∈ snake simpleName.toList, canContinue c = true :=
    forall_mem_snake caseClosed_canContinue rfl h
  rw [isValid_eq, beginsWithDigit, hchars]
  · rfl
  · rw [ne_eq, ← String.toList_eq_nil_iff, hchars]
    exact List.cons_ne_nil _ _
  · rw [hchars, List.forall_mem_cons, List.forall_mem_cons]
    exact ⟨rfl, rfl, hsnake⟩
  · refine not_mem_keywords_of_underscore ?_ hne
    rw [hchars]
    exact List.mem_cons_self

end Implementation

theorem Identifier.isValid_append_iff {base rest : String} (hbody : ∀ c ∈ rest.toList, canContinue c = true)
    (hbegins : beginsWithDigit rest = false) (hI : 'I' ∈ rest.toList) :
    isValid (base ++ rest) = true ↔ Fits base := by
  have hmem : 'I' ∈ (base ++ rest).toList := by
    rw [String.toList_append]
    exact List.mem_append_right _ hI
  have hne : base ++ rest ≠ "" := fun hempty => by
    rw [hempty] at hmem
    exact absurd hmem (by decide)
  have hbeginning : beginsWithDigit (base ++ rest) = beginsWithDigit base := by
    by_cases hempty : base = ""
    · rw [hempty, String.empty_append, hbegins]
      rfl
    · exact beginsWithDigit_append hempty rest
  rw [isValid_iff, hbeginning, String.toList_append, List.forall_mem_append]
  exact ⟨fun h => ⟨h.2.1.1, h.2.2.1⟩, fun h => ⟨hne, ⟨h.body, hbody⟩, h.beginning, not_mem_keywords_of_I hmem⟩⟩

namespace Bundle

variable {bundle : Bundle} {locale : Option String}

theorem exists_implementation_eq (bundle : Bundle)
    (hlocale : ∀ text ∈ locale, ∀ c ∈ text.toList, canContinue c = true) :
    ∃ rest, bundle.implementation locale = bundle.joinedName ++ rest ∧
      (∀ c ∈ rest.toList, canContinue c = true) ∧ beginsWithDigit rest = false ∧ 'I' ∈ rest.toList := by
  cases locale with
  | none => exact ⟨"Impl", rfl, by decide, by decide, by decide⟩
  | some text =>
    refine ⟨"_" ++ (text ++ ("_" ++ "Impl")), ?_, ?_, ?_, ?_⟩
    · show bundle.joinedName ++ "_" ++ text ++ "_" ++ "Impl" = _
      rw [String.append_assoc, String.append_assoc, String.append_assoc]
    · rw [String.toList_append, String.toList_append, List.forall_mem_append, List.forall_mem_append]
      exact ⟨by decide, hlocale text rfl, by decide⟩
    · exact beginsWithDigit_append (by decide) _
    · rw [String.toList_append, String.toList_append]
      exact List.mem_append_right _ (List.mem_append_right _ (by decide))

theorem isValid_implementation_iff (hlocale : ∀ text ∈ locale, ∀ c ∈ text.toList, canContinue c = true) :
    isValid (bundle.implementation locale) = true ↔ Fits bundle.joinedName := by
  obtain ⟨rest, hrest, hbody, hbegins, hI⟩ := bundle.exists_implementation_eq hlocale
  rw [hrest]
  exact isValid_append_iff hbody hbegins hI

end Bundle

namespace Implementation

/-- The names that a module brings in. -/
def introduced (implementation : Implementation) : List String :=
  implementation.moduleName :: implementation.simpleName ::
    (implementation.statics.map (·.ident) ++ implementation.fields.map (·.ident) ++
      implementation.holders.map (·.name) ++ implementation.initializers.map (·.accessor ++ "_initializer"))

variable {assembly : Assembly}

theorem isValid_holders (hbody : ∀ code ∈ assembly.accessors, ∀ c ∈ code.accessor.name.toList, canContinue c = true) :
    ∀ holder ∈ (ofAssembly assembly).holders, isValid holder.name = !isNumeric holder.accessor := by
  have hnames := forall₂_holderNames [assembly.simpleName] (assembly.accessors.map (·.accessor.name))
  rw [List.forall₂_map_left_iff, List.forall₂_iff_zip] at hnames
  intro holder hholder
  obtain ⟨⟨code, name⟩, hheld, rfl⟩ := List.mem_map.1 hholder
  obtain ⟨number, rfl⟩ := hnames.2 hheld
  exact isValid_numbered_holder (hbody code (List.of_mem_zip hheld).1) number

end Implementation

end BundleForge
