import BundleForge.Proofs.Lexical
/-!
# What is left of generated code without its texts

The skeleton of a source has one place for each expression that spells a text, whether that is a single literal or
a block that fills a builder, and keeps every other lexeme. A line of code that has no such expression, or one at
a known place, is found unchanged in the skeleton: its other literals do not stand where the literal of an
expression would, and no line that is written for an item begins like the block of a builder does.
-/

namespace BundleForge.Lexical

/-! ### Taking expressions out -/

def isGap : Lexeme → Bool
  | .code c => c == ' ' || c == '\n'
  | .literal _ => false

def isDigit : Lexeme → Bool
  | .code c => c.isDigit
  | .literal _ => false

def after? (text : String) (lexemes : List Lexeme) : Option (List Lexeme) :=
  if (codes text.toList).isPrefixOf lexemes then some (lexemes.drop text.toList.length) else none

def afterCall? (opening closing : String) (lexemes : List Lexeme) : Option (List Lexeme) :=
  match after? opening lexemes with
  | some (.literal _ :: rest) => after? closing rest
  | _ => none

def afterShort? : List Lexeme → Option (List Lexeme) := afterCall? "::std::string::String::from(" ")"

def afterPush? (lexemes : List Lexeme) : Option (List Lexeme) :=
  afterCall? "builder.push_str(" ");" (lexemes.dropWhile isGap)

variable {lexemes rest : List Lexeme} {text : List Char}

theorem eq_of_after? {text : String} (h : after? text lexemes = some rest) :
    lexemes = codes text.toList ++ rest := by
  rw [after?] at h
  split at h
  · rename_i hprefix
    obtain ⟨later, rfl⟩ := List.isPrefixOf_iff_prefix.1 hprefix
    have hlength : (codes text.toList).length = text.toList.length := List.length_map _
    rw [← hlength, List.drop_left] at h
    rw [Option.some.inj h]
  · simp at h

theorem after?_codes (text : String) (rest : List Lexeme) :
    after? text (codes text.toList ++ rest) = some rest := by
  have hlength : (codes text.toList).length = text.toList.length := List.length_map _
  rw [after?, if_pos (List.isPrefixOf_iff_prefix.2 (List.prefix_append _ _)), ← hlength, List.drop_left]

theorem eq_of_afterCall? {opening closing : String} (h : afterCall? opening closing lexemes = some rest) :
    ∃ text, lexemes = codes opening.toList ++ .literal text :: (codes closing.toList ++ rest) := by
  rw [afterCall?] at h
  split at h
  · rename_i text later hopening
    exact ⟨text, by rw [eq_of_after? hopening, eq_of_after? h]⟩
  · simp at h

theorem afterCall?_codes (opening closing : String) (text : List Char) (rest : List Lexeme) :
    afterCall? opening closing (codes opening.toList ++ .literal text :: (codes closing.toList ++ rest)) =
      some rest := by
  rw [afterCall?, after?_codes]
  exact after?_codes closing rest

theorem length_dropWhile_le {α : Type} (p : α → Bool) (items : List α) :
    (items.dropWhile p).length ≤ items.length :=
  (List.dropWhile_sublist p).length_le

theorem length_of_afterCall? {opening closing : String}
    (h : afterCall? opening closing lexemes = some rest) : rest.length < lexemes.length := by
  obtain ⟨text, rfl⟩ := eq_of_afterCall? h
  simp only [List.length_append, List.length_cons]
  omega

def afterPushes (lexemes : List Lexeme) : List Lexeme :=
  match _h : afterPush? lexemes with
  | some rest => afterPushes rest
  | none => lexemes
termination_by lexemes.length
decreasing_by exact Nat.lt_of_lt_of_le (length_of_afterCall? _h) (length_dropWhile_le _ _)

/-- What follows a block that fills a builder and returns it. -/
def afterBuilder? (lexemes : List Lexeme) : Option (List Lexeme) := do
  let lexemes ← after? "\x7b" lexemes
  let lexemes ← after? "let mut builder = ::std::string::String::with_capacity("
    (lexemes.dropWhile isGap)
  let lexemes ← after? ");" (lexemes.dropWhile isDigit)
  let lexemes ← after? "builder" ((afterPushes lexemes).dropWhile isGap)
  after? "\x7d" (lexemes.dropWhile isGap)

/-- What follows an expression that spells a text. -/
def afterExpression? (lexemes : List Lexeme) : Option (List Lexeme) :=
  (afterShort? lexemes).or (afterBuilder? lexemes)

theorem length_afterPushes (lexemes : List Lexeme) : (afterPushes lexemes).length ≤ lexemes.length := by
  induction lexemes using afterPushes.induct with
  | case1 lexemes rest hpush ih =>
    have hless := Nat.lt_of_lt_of_le (length_of_afterCall? hpush) (length_dropWhile_le _ _)
    rw [afterPushes]
    split
    · rename_i rest' hpush'
      obtain rfl := Option.some.inj (hpush.symm.trans hpush')
      exact Nat.le_trans ih (Nat.le_of_lt hless)
    · exact Nat.le_refl _
  | case2 lexemes hnone =>
    rw [afterPushes]
    split
    · rename_i rest hpush
      rw [hnone] at hpush
      simp at hpush
    · exact Nat.le_refl _

theorem length_of_after? {text : String} (h : after? text lexemes = some rest) :
    rest.length + text.toList.length = lexemes.length := by
  rw [eq_of_after? h, List.length_append, codes, List.length_map, Nat.add_comm]

theorem length_of_afterBuilder? (h : afterBuilder? lexemes = some rest) :
    rest.length < lexemes.length := by
  simp only [afterBuilder?, Option.bind_eq_bind, Option.bind_eq_some_iff] at h
  obtain ⟨body, hbody, capacity, hcapacity, pushes, hpushes, last, hlast, hend⟩ := h
  have h₁ := length_of_after? hbody
  have h₂ := length_of_after? hcapacity
  have h₃ := length_of_after? hpushes
  have h₄ := length_of_after? hlast
  have h₅ := length_of_after? hend
  have h₆ := length_dropWhile_le isGap body
  have h₇ := length_dropWhile_le isDigit capacity
  have h₈ := length_afterPushes pushes
  have h₉ := length_dropWhile_le isGap (afterPushes pushes)
  have h₁₀ := length_dropWhile_le isGap last
  have hbrace : "\x7b".toList.length = 1 := rfl
  omega

theorem length_of_afterExpression? (h : afterExpression? lexemes = some rest) :
    rest.length < lexemes.length := by
  rw [afterExpression?, Option.or_eq_some_iff] at h
  rcases h with hshort | ⟨-, hbuilder⟩
  · exact length_of_afterCall? hshort
  · exact length_of_afterBuilder? hbuilder

/-- The lexemes with a place for each expression that spells a text. -/
def skeleton (lexemes : List Lexeme) : List (Option Lexeme) :=
  match lexemes with
  | [] => []
  | lexeme :: others =>
    match _h : afterExpression? (lexeme :: others) with
    | some rest => none :: skeleton rest
    | none => some lexeme :: skeleton others
termination_by lexemes.length
decreasing_by
  · exact length_of_afterExpression? _h
  · exact Nat.lt_succ_self _

theorem skeleton_nil : skeleton [] = [] := by
  rw [skeleton]

theorem skeleton_of_some (h : afterExpression? lexemes = some rest) :
    skeleton lexemes = none :: skeleton rest := by
  cases lexemes with
  | nil =>
    have hless := length_of_afterExpression? h
    simp at hless
  | cons lexeme others =>
    rw [skeleton]
    split
    · rename_i rest' hrest
      rw [Option.some.inj (h.symm.trans hrest)]
    · rename_i hnone
      rw [h] at hnone
      simp at hnone

theorem skeleton_of_none {lexeme : Lexeme} (h : afterExpression? (lexeme :: rest) = none) :
    skeleton (lexeme :: rest) = some lexeme :: skeleton rest := by
  rw [skeleton]
  split
  · rename_i later hsome
    rw [h] at hsome
    simp at hsome
  · rfl

/-! ### Code that is kept -/

def opening : List Char := "::std::string::String::from(".toList

/-- No short expression begins in some code that stands before some lexemes. -/
def Shy (text : List Char) (lexemes : List Lexeme) : Prop :=
  ∀ part, part <:+ text → part ≠ [] → afterShort? (codes part ++ lexemes) = none

/-- Code that goes on as the code before a literal does is a beginning of it. -/
theorem exists_of_codes_append_eq {text other literal : List Char} {later : List Lexeme}
    (h : codes text ++ lexemes = codes other ++ .literal literal :: later) :
    ∃ between, other = text ++ between ∧ lexemes = codes between ++ .literal literal :: later := by
  induction text generalizing other with
  | nil => exact ⟨other, rfl, h⟩
  | cons c rest ih =>
    cases other with
    | nil => exact absurd (List.cons.inj h).1 (by simp)
    | cons d others =>
      obtain ⟨hhead, htail⟩ := List.cons.inj h
      obtain ⟨between, rfl, hlexemes⟩ := ih htail
      rw [Lexeme.code.inj hhead]
      exact ⟨between, rfl, hlexemes⟩

theorem exists_of_afterShort? (h : afterShort? (codes text ++ lexemes) = some rest) :
    ∃ between literal later, opening = text ++ between ∧
      lexemes = codes between ++ .literal literal :: later := by
  obtain ⟨literal, heq⟩ := eq_of_afterCall? h
  obtain ⟨between, hopening, hlexemes⟩ := exists_of_codes_append_eq heq
  exact ⟨between, literal, _, hopening, hlexemes⟩

theorem afterShort?_of_mem {c : Char} (hmem : c ∈ text) (hc : c ∉ opening) (lexemes : List Lexeme) :
    afterShort? (codes text ++ lexemes) = none := by
  rw [Option.eq_none_iff_forall_ne_some]
  intro rest hrest
  obtain ⟨between, literal, later, hopening, -⟩ := exists_of_afterShort? hrest
  rw [hopening] at hc
  exact hc (List.mem_append_left _ hmem)

theorem shy_of_ends {c : Char} (hc : c ∉ opening) (text : List Char) (lexemes : List Lexeme) :
    Shy (text ++ [c]) lexemes := by
  intro part hpart hne
  obtain ⟨before, heq⟩ := hpart
  have hlast : part.getLast hne = c := by
    have hends : (before ++ part).getLast (List.append_ne_nil_of_right_ne_nil _ hne) = c := by
      simp only [heq, List.getLast_append_singleton]
    rwa [List.getLast_append_of_ne_nil _ hne] at hends
  exact afterShort?_of_mem (hlast ▸ List.getLast_mem hne) hc lexemes

theorem shy_of_literal (hends : ¬ opening <:+ text) (literal : List Char) (lexemes : List Lexeme) :
    Shy text (.literal literal :: lexemes) := by
  intro part hpart _
  rw [Option.eq_none_iff_forall_ne_some]
  intro rest hrest
  obtain ⟨between, literal', later, hopening, hlexemes⟩ := exists_of_afterShort? hrest
  cases between with
  | nil => exact hends (hopening ▸ (List.append_nil part).symm ▸ hpart)
  | cons c others => exact absurd (List.cons.inj hlexemes).1 (by simp)

theorem afterBuilder?_of_ne {lexeme : Lexeme} (h : lexeme ≠ .code '\x7b') (rest : List Lexeme) :
    afterBuilder? (lexeme :: rest) = none := by
  have hnone : after? "\x7b" (lexeme :: rest) = none := by
    rw [Option.eq_none_iff_forall_ne_some]
    intro later hlater
    exact h (List.cons.inj (eq_of_after? hlater)).1
  rw [afterBuilder?, hnone]
  rfl

theorem afterShort?_of_ne {lexeme : Lexeme} (h : lexeme ≠ .code ':') (rest : List Lexeme) :
    afterShort? (lexeme :: rest) = none := by
  rw [Option.eq_none_iff_forall_ne_some]
  intro later hlater
  obtain ⟨text, heq⟩ := eq_of_afterCall? hlater
  exact h (List.cons.inj heq).1

theorem skeleton_codes (hbrace : '\x7b' ∉ text) (hshy : Shy text rest) :
    skeleton (codes text ++ rest) = (codes text).map some ++ skeleton rest := by
  induction text with
  | nil => rfl
  | cons c others ih =>
    rw [List.mem_cons, not_or] at hbrace
    have hnone : afterExpression? (codes (c :: others) ++ rest) = none := by
      rw [afterExpression?, hshy _ List.suffix_rfl (List.cons_ne_nil _ _), Option.none_or]
      exact afterBuilder?_of_ne (fun heq => hbrace.1 (Lexeme.code.inj heq).symm) _
    have hothers : Shy others rest :=
      fun part hpart => hshy part (hpart.trans (List.suffix_cons c others))
    refine (skeleton_of_none hnone).trans ?_
    exact congrArg (List.cons _) (ih hbrace.2 hothers)

theorem skeleton_literal (literal : List Char) (rest : List Lexeme) :
    skeleton (.literal literal :: rest) = some (.literal literal) :: skeleton rest := by
  apply skeleton_of_none
  rw [afterExpression?, afterShort?_of_ne (by simp), afterBuilder?_of_ne (by simp), Option.none_or]

def firstWord (lexemes : List Lexeme) : List Lexeme :=
  (lexemes.dropWhile isGap).takeWhile (!isGap ·)

/-- The lines do not begin like those of a builder. -/
def Calm (lexemes : List Lexeme) : Prop := firstWord lexemes ≠ codes "let".toList

theorem calm_nil : Calm [] := by
  unfold Calm
  decide

theorem calm_cons_gap {lexeme : Lexeme} (h : isGap lexeme = true) (rest : List Lexeme) :
    Calm (lexeme :: rest) ↔ Calm rest := by
  rw [Calm, Calm, firstWord, firstWord, List.dropWhile_cons_of_pos h]

theorem calm_blanks (blanks : Nat) (rest : List Lexeme) : Calm (blanksOf blanks ++ rest) ↔ Calm rest := by
  rw [Calm, Calm, firstWord, firstWord, List.dropWhile_append_of_pos]
  intro lexeme hlexeme
  rw [List.eq_of_mem_replicate hlexeme]
  rfl

theorem skeleton_brace (hcalm : Calm rest) :
    skeleton (.code '\x7b' :: rest) = some (.code '\x7b') :: skeleton rest := by
  have hnone : after? "let mut builder = ::std::string::String::with_capacity("
      (rest.dropWhile isGap) = none := by
    rw [Option.eq_none_iff_forall_ne_some]
    intro later hlater
    apply hcalm
    rw [firstWord, eq_of_after? hlater]
    rfl
  have hbuilder : afterBuilder? (.code '\x7b' :: rest) = none := by
    have hbody : after? "\x7b" (.code '\x7b' :: rest) = some rest := after?_codes "\x7b" rest
    rw [afterBuilder?, hbody]
    simp only [Option.bind_eq_bind, Option.bind_some, hnone, Option.bind_none]
  apply skeleton_of_none
  rw [afterExpression?, afterShort?_of_ne (by simp), hbuilder, Option.none_or]

/-! ### Lines -/

def newline : Lexeme := .code '\n'

/-- The lexemes are kept in front of some others. -/
def Keeps (lexemes rest : List Lexeme) : Prop :=
  skeleton (lexemes ++ rest) = lexemes.map some ++ skeleton rest

theorem Keeps.append {others : List Lexeme} (h : Keeps lexemes (others ++ rest))
    (hothers : Keeps others rest) : Keeps (lexemes ++ others) rest := by
  unfold Keeps at h hothers ⊢
  rw [List.append_assoc, h, hothers, List.map_append, List.append_assoc]

theorem keeps_literal (literal : List Char) (rest : List Lexeme) : Keeps [.literal literal] rest :=
  skeleton_literal literal rest

theorem keeps_brace (hcalm : Calm rest) : Keeps [.code '\x7b'] rest := skeleton_brace hcalm

theorem keeps_codes_of_ends {c : Char} (hc : c ∉ opening) (hbrace : '\x7b' ∉ text) (hne : c ≠ '\x7b')
    (rest : List Lexeme) : Keeps (codes (text ++ [c])) rest := by
  apply skeleton_codes
  · rw [List.mem_append, List.mem_singleton, not_or]
    exact ⟨hbrace, hne.symm⟩
  · exact shy_of_ends hc text rest

theorem blanksOf_eq (blanks : Nat) : blanksOf blanks = codes (List.replicate blanks ' ') := by
  rw [codes, List.map_replicate]
  rfl

/-- A stretch of code within a line. -/
structure Piece (text : String) : Prop where
  codes : Codes text.toList
  flat : ∀ c ∈ text.toList, c ≠ '\n' ∧ c ≠ '\x7b'

instance (text : String) : Decidable (Piece text) :=
  decidable_of_iff (Codes text.toList ∧ ∀ c ∈ text.toList, c ≠ '\n' ∧ c ≠ '\x7b')
    ⟨fun h => ⟨h.1, h.2⟩, fun h => ⟨h.codes, h.flat⟩⟩

theorem piece_ofList {chars : List Char} (h : Codes chars ∧ ∀ c ∈ chars, c ≠ '\n' ∧ c ≠ '\x7b') :
    Piece (String.ofList chars) := by
  refine ⟨?_, ?_⟩
  · rw [String.toList_ofList]
    exact h.1
  · rw [String.toList_ofList]
    exact h.2

theorem Piece.append {text rest : String} (h : Piece text) (hrest : Piece rest) : Piece (text ++ rest) := by
  refine ⟨?_, ?_⟩
  · rw [String.toList_append]
    exact h.codes.append hrest.codes
  · rw [String.toList_append, List.forall_mem_append]
    exact ⟨h.flat, hrest.flat⟩

theorem IsPath.piece {text : String} (h : IsPath text.toList) : Piece text := by
  refine ⟨h.codes, fun c hc => ⟨?_, ?_⟩⟩
  · rintro rfl
    exact absurd (h _ hc) (by decide)
  · rintro rfl
    exact absurd (h _ hc) (by decide)

/-- A text that begins like code, and not like a line that makes a builder. -/
structure Begins (text : List Char) : Prop where
  head : ∃ c rest, text = c :: rest ∧ c ≠ ' ' ∧ c ≠ '/'
  calm : ∀ rest, Calm (codes text ++ rest)

theorem begins_of_head {c : Char} (h : c ∉ [' ', '/', '\n', 'l']) (rest : List Char) :
    Begins (c :: rest) := by
  simp only [List.mem_cons, List.not_mem_nil, or_false, not_or] at h
  refine ⟨⟨c, rest, rfl, h.1, h.2.1⟩, fun later heq => ?_⟩
  have hgap : isGap (.code c) = false := by simp [isGap, h.1, h.2.2.1]
  rw [firstWord, codes, List.map_cons, List.cons_append, List.dropWhile_cons_of_neg (by simp [hgap]),
    List.takeWhile_cons_of_pos (by simp [hgap])] at heq
  exact h.2.2.2 (Lexeme.code.inj (List.cons.inj heq).1)

theorem begins_of_path (h : IsPath text) (rest : List Char) : Begins (text ++ ':' :: rest) := by
  have hgap : ∀ lexeme ∈ codes text, isGap lexeme = false := by
    intro lexeme hlexeme
    obtain ⟨c, hc, rfl⟩ := List.mem_map.1 hlexeme
    have hblank : c ≠ ' ' ∧ c ≠ '\n' := by
      refine ⟨?_, ?_⟩ <;> rintro rfl <;> exact absurd (h _ hc) (by decide)
    simp [isGap, hblank]
  refine ⟨?_, fun later heq => ?_⟩
  · cases text with
    | nil => exact ⟨':', rest, rfl, by decide, by decide⟩
    | cons c others =>
      refine ⟨c, others ++ ':' :: rest, rfl, ?_, ?_⟩ <;> rintro rfl <;>
        exact absurd (h _ List.mem_cons_self) (by decide)
  · have hcolon : Lexeme.code ':' ∈ firstWord (codes (text ++ ':' :: rest) ++ later) := by
      have hdrop : (codes (text ++ ':' :: rest) ++ later).dropWhile isGap =
          codes text ++ .code ':' :: (codes rest ++ later) := by
        rw [codes_append, List.append_assoc]
        cases htext : codes text with
        | nil => rfl
        | cons first others =>
          have hfirst := hgap first (htext ▸ List.mem_cons_self)
          exact List.dropWhile_cons_of_neg (by simp [hfirst])
      rw [firstWord, hdrop, List.takeWhile_append_of_pos fun lexeme hlexeme => by simp [hgap lexeme hlexeme]]
      exact List.mem_append_right _ List.mem_cons_self
    rw [heq] at hcolon
    exact absurd hcolon (by decide)

theorem Begins.append (h : Begins text) (rest : List Char) : Begins (text ++ rest) := by
  obtain ⟨⟨c, others, rfl, hblank, hslash⟩, hcalm⟩ := h
  refine ⟨⟨c, others ++ rest, rfl, hblank, hslash⟩, fun later => ?_⟩
  rw [codes_append, List.append_assoc]
  exact hcalm _

/-- A stretch of code from the beginning of a line on. -/
structure Row (text : String) : Prop extends Piece text where
  begins : Begins text.toList

theorem Row.append {text rest : String} (h : Row text) (hrest : Piece rest) : Row (text ++ rest) := by
  refine ⟨h.toPiece.append hrest, ?_⟩
  rw [String.toList_append]
  exact h.begins.append _

theorem row_of_head {text : String} (h : Piece text)
    (hhead : (text.toList.head?.any (· ∉ [' ', '/', '\n', 'l'])) = true) : Row text := by
  refine ⟨h, ?_⟩
  cases htext : text.toList with
  | nil =>
    rw [htext] at hhead
    simp at hhead
  | cons c rest =>
    rw [htext] at hhead
    exact begins_of_head (of_decide_eq_true hhead) rest

theorem row_of_path {path rest : String} (h : IsPath path.toList) (hrest : Piece rest)
    (hcolon : rest.toList.head? = some ':') : Row (path ++ rest) := by
  refine ⟨h.piece.append hrest, ?_⟩
  obtain ⟨others, hothers⟩ := List.head?_eq_some_iff.1 hcolon
  rw [String.toList_append, hothers]
  exact begins_of_path h others

theorem Begins.calm_blanks (h : Begins text) (blanks : Nat) (rest : List Lexeme) :
    Calm (blanksOf blanks ++ codes text ++ rest) := by
  rw [List.append_assoc, Lexical.calm_blanks]
  exact h.calm rest

theorem reads_indented {line : List Char} (hhead : ∃ c rest, line = c :: rest ∧ c ≠ ' ' ∧ c ≠ '/')
    {last : Mode} (h : Reads .code line lexemes last) (blanks : Nat) :
    Reads (.start blanks) line (blanksOf blanks ++ lexemes) last := by
  obtain ⟨c, rest, rfl, hblank, hslash⟩ := hhead
  exact h.of_start hblank hslash blanks

/-- A line of code without expressions for texts, with its lexemes. -/
structure Settled (line : String) (lexemes : List Lexeme) : Prop where
  flat : '\n' ∉ line.toList
  begins : Begins line.toList
  reads : ∃ last ∈ midst, Reads .code line.toList lexemes last
  keeps : ∀ blanks rest, Calm rest → Keeps (blanksOf blanks ++ lexemes ++ [newline]) rest
  calm : ∀ blanks rest, Calm (blanksOf blanks ++ lexemes ++ rest)

theorem Settled.reads_line {line : String} (h : Settled line lexemes) (blanks : Nat) :
    Reads (.start blanks) (line.toList ++ ['\n']) (blanksOf blanks ++ lexemes ++ [newline])
      (.start 0) := by
  obtain ⟨last, hlast, hreads⟩ := h.reads
  exact (reads_indented h.begins.head hreads blanks).append (reads_newline hlast)

theorem keeps_newline (rest : List Lexeme) : Keeps [newline] rest :=
  @keeps_codes_of_ends [] '\n' (by decide) List.not_mem_nil (by decide) rest

theorem keeps_indented {text : String} {c : Char} (hc : c ∉ opening) (hne : c ≠ '\x7b')
    (hflat : ∀ d ∈ text.toList, d ≠ '\n' ∧ d ≠ '\x7b') (blanks : Nat) (rest : List Lexeme) :
    Keeps (blanksOf blanks ++ codes (text.toList ++ [c])) rest := by
  rw [blanksOf_eq, ← codes_append, ← List.append_assoc]
  apply keeps_codes_of_ends hc ?_ hne
  rw [List.mem_append, not_or]
  exact ⟨fun hmem => absurd (List.eq_of_mem_replicate hmem) (by decide), fun hmem => (hflat _ hmem).2 rfl⟩

theorem settled_of_reads {line : String} (hflat : ∀ c ∈ line.toList, c ≠ '\n' ∧ c ≠ '\x7b')
    (hbegins : Begins line.toList)
    (hreads : ∃ last ∈ midst, Reads .code line.toList (codes line.toList) last) :
    Settled line (codes line.toList) where
  flat hmem := (hflat _ hmem).1 rfl
  begins := hbegins
  reads := hreads
  keeps blanks rest _ := by
    have hkeeps := keeps_indented (c := '\n') (by decide) (by decide) hflat blanks rest
    rwa [codes_append, ← List.append_assoc] at hkeeps
  calm := hbegins.calm_blanks

theorem settled_code {line : String} (h : Row line) : Settled line (codes line.toList) :=
  settled_of_reads h.flat h.begins (h.codes .code List.mem_cons_self)

/-- A line with an attribute. Its mark would begin a raw literal behind a word, so this line is no row. -/
theorem settled_attribute {chars : List Char} {rest : String} (h : Piece (String.ofList chars))
    (hrest : Piece rest) :
    Settled (String.ofList ('#' :: chars) ++ rest) (codes (String.ofList ('#' :: chars) ++ rest).toList) := by
  have hpiece := h.append hrest
  have hline : (String.ofList ('#' :: chars) ++ rest).toList = '#' :: (String.ofList chars ++ rest).toList := by
    simp only [String.toList_append, String.toList_ofList, List.cons_append]
  apply settled_of_reads
  · rw [hline, List.forall_mem_cons]
    exact ⟨by decide, hpiece.flat⟩
  · rw [hline]
    exact begins_of_head (by decide) _
  · obtain ⟨last, hlast, hreads⟩ := hpiece.codes .code List.mem_cons_self
    have hmark : step .code '#' = some ([.code '#'], .code) := rfl
    refine ⟨last, hlast, ?_⟩
    rw [hline]
    exact Reads.cons hmark hreads

theorem settled_block {header : String} (h : Row header) :
    Settled (header ++ " \x7b") (codes (header ++ " \x7b").toList) where
  flat hmem := by
    rw [String.toList_append, List.mem_append] at hmem
    rcases hmem with hmem | hmem
    · exact (h.flat _ hmem).1 rfl
    · revert hmem
      decide
  begins := by
    rw [String.toList_append]
    exact h.begins.append _
  reads := by
    have hends : Codes " \x7b".toList := by decide
    rw [String.toList_append]
    exact h.codes.append hends .code List.mem_cons_self
  keeps blanks rest hcalm := by
    have hnewline : Calm ([newline] ++ rest) := (calm_cons_gap rfl rest).2 hcalm
    have hblank := keeps_indented (c := ' ') (by decide) (by decide) h.flat blanks
      (([.code '\x7b'] ++ [newline]) ++ rest)
    have hkeeps := hblank.append ((keeps_brace hnewline).append (keeps_newline rest))
    have heq : codes (header ++ " \x7b").toList = codes (header.toList ++ [' ']) ++ [.code '\x7b'] := by
      rw [String.toList_append, codes_append, codes_append, List.append_assoc]
      rfl
    rw [heq]
    simpa only [List.append_assoc] using hkeeps
  calm blanks rest := by
    rw [String.toList_append]
    exact (h.begins.append _).calm_blanks blanks rest

theorem settled_braces {header : String} (h : Row header) :
    Settled (header ++ " \x7b\x7d") (codes (header ++ " \x7b\x7d").toList) where
  flat hmem := by
    rw [String.toList_append, List.mem_append] at hmem
    rcases hmem with hmem | hmem
    · exact (h.flat _ hmem).1 rfl
    · revert hmem
      decide
  begins := by
    rw [String.toList_append]
    exact h.begins.append _
  reads := by
    have hends : Codes " \x7b\x7d".toList := by decide
    rw [String.toList_append]
    exact h.codes.append hends .code List.mem_cons_self
  keeps blanks rest _ := by
    have hclosed : Calm ((codes ['\x7d'] ++ [newline]) ++ rest) :=
      (begins_of_head (by decide) []).calm ([newline] ++ rest)
    have hlast : Keeps (codes ['\x7d'] ++ [newline]) rest :=
      @keeps_codes_of_ends ['\x7d'] '\n' (by decide) (by decide) (by decide) rest
    have hblank := keeps_indented (c := ' ') (by decide) (by decide) h.flat blanks
      (([.code '\x7b'] ++ (codes ['\x7d'] ++ [newline])) ++ rest)
    have hkeeps := hblank.append ((keeps_brace hclosed).append hlast)
    have heq : codes (header ++ " \x7b\x7d").toList =
        codes (header.toList ++ [' ']) ++ ([.code '\x7b'] ++ codes ['\x7d']) := by
      rw [String.toList_append, codes_append, codes_append, List.append_assoc]
      rfl
    rw [heq]
    simpa only [List.append_assoc] using hkeeps
  calm blanks rest := by
    rw [String.toList_append]
    exact (h.begins.append _).calm_blanks blanks rest

/-! ### Literals in lines -/

/-- Code in front of a literal that is no expression for a text. -/
structure Before (text : String) : Prop extends Row text where
  opens : Opens text.toList
  ends : ∀ blanks, ¬ opening <:+ List.replicate blanks ' ' ++ text.toList

theorem Before.reads_literal {before : String} (h : Before before) (name : String) :
    Reads .code (before ++ Literal.literal name).toList
      (codes before.toList ++ [.literal name.toList]) .closed := by
  rw [String.toList_append]
  exact (h.opens .code List.mem_cons_self).append (Lexical.reads_literal name)

theorem Before.keeps_literal {before : String} (h : Before before) (blanks : Nat) (literal : List Char)
    (rest : List Lexeme) :
    Keeps (blanksOf blanks ++ (codes before.toList ++ [.literal literal])) rest := by
  rw [blanksOf_eq, ← List.append_assoc, ← codes_append]
  refine Keeps.append (skeleton_codes ?_ (shy_of_literal (h.ends blanks) literal rest))
    (Lexical.keeps_literal literal rest)
  rw [List.mem_append, not_or]
  exact ⟨fun hmem => absurd (List.eq_of_mem_replicate hmem) (by decide), fun hmem => (h.flat _ hmem).2 rfl⟩

theorem Before.calm {before : String} (h : Before before) (blanks : Nat) (lexemes rest : List Lexeme) :
    Calm (blanksOf blanks ++ (codes before.toList ++ lexemes) ++ rest) := by
  have hcalm := h.begins.calm_blanks blanks (lexemes ++ rest)
  simpa only [List.append_assoc] using hcalm

/-- The end of an opening bracket does not decide what was opened, but the letter before it does. -/
theorem not_suffix_of_ends {before : List Char} {c : Char} (hc : c ≠ 'm') :
    ¬ opening <:+ before ++ [c, '('] := by
  have hopening : opening = "::std::string::String::fro".toList ++ ['m', '('] := by decide
  rintro ⟨front, heq⟩
  rw [hopening, ← List.append_assoc] at heq
  exact hc (List.cons.inj (List.append_inj_right' heq rfl)).1.symm

theorem settled_literal {before after name : String} (hbefore : Before before) (hafter : Piece after)
    (hcloses : Closes after.toList) :
    Settled (before ++ Literal.literal name ++ after)
      (codes before.toList ++ [.literal name.toList] ++ codes after.toList) where
  flat hmem := by
    rw [String.toList_append, String.toList_append, List.mem_append, List.mem_append] at hmem
    rcases hmem with (hmem | hmem) | hmem
    · exact (hbefore.flat _ hmem).1 rfl
    · exact Literal.not_mem_literal (.inl rfl) name hmem
    · exact (hafter.flat _ hmem).1 rfl
  begins := by
    rw [String.toList_append, String.toList_append]
    exact (hbefore.begins.append _).append _
  reads := by
    obtain ⟨last, hlast, hreads⟩ := hcloses
    refine ⟨last, hlast, ?_⟩
    rw [String.toList_append]
    exact (hbefore.reads_literal name).append hreads
  keeps blanks rest _ := by
    have hlast : Keeps (codes (after.toList ++ ['\n'])) rest := by
      apply keeps_codes_of_ends (by decide) ?_ (by decide)
      exact fun hmem => (hafter.flat _ hmem).2 rfl
    have hnewline : codes ['\n'] = [newline] := rfl
    have hkeeps := (hbefore.keeps_literal blanks name.toList _).append hlast
    rw [codes_append, hnewline] at hkeeps
    simpa only [List.append_assoc] using hkeeps
  calm blanks rest := by
    rw [List.append_assoc (codes before.toList)]
    exact hbefore.calm blanks _ rest

/-! ### Expressions in lines -/

/-- What stands in a line before an expression for a text. -/
structure Prelude (line : String) (lexemes : List Lexeme) : Prop where
  flat : '\n' ∉ line.toList
  begins : Begins line.toList
  reads : Reads .code line.toList lexemes .code
  keeps : ∀ blanks rest, Keeps (blanksOf blanks ++ lexemes) rest
  calm : ∀ blanks rest, Calm (blanksOf blanks ++ lexemes ++ rest)

theorem prelude_code {text : String} (h : Row text) :
    Prelude (text ++ " ") (codes (text ++ " ").toList) where
  flat hmem := by
    rw [String.toList_append, List.mem_append] at hmem
    rcases hmem with hmem | hmem
    · exact (h.flat _ hmem).1 rfl
    · revert hmem
      decide
  begins := by
    rw [String.toList_append]
    exact h.begins.append _
  reads := by
    have hends : Opens " ".toList := by decide
    rw [String.toList_append]
    exact h.codes.opens hends .code List.mem_cons_self
  keeps blanks rest := by
    rw [String.toList_append]
    exact keeps_indented (by decide) (by decide) h.flat blanks rest
  calm blanks rest := by
    rw [String.toList_append]
    exact (h.begins.append _).calm_blanks blanks rest

theorem prelude_literal {before name : String} (h : Before before) :
    Prelude (before ++ Literal.literal name ++ ", ")
      (codes before.toList ++ [.literal name.toList] ++ codes ", ".toList) where
  flat hmem := by
    rw [String.toList_append, String.toList_append, List.mem_append, List.mem_append] at hmem
    rcases hmem with (hmem | hmem) | hmem
    · exact (h.flat _ hmem).1 rfl
    · exact Literal.not_mem_literal (.inl rfl) name hmem
    · revert hmem
      decide
  begins := by
    rw [String.toList_append, String.toList_append]
    exact (h.begins.append _).append _
  reads := by
    have hcomma : Reads .closed ", ".toList (codes ", ".toList) .code := by decide
    rw [String.toList_append]
    exact (h.reads_literal name).append hcomma
  keeps blanks rest := by
    have hcomma : Keeps (codes ", ".toList) rest :=
      @keeps_codes_of_ends [','] ' ' (by decide) (by decide) (by decide) rest
    have hkeeps := (h.keeps_literal blanks name.toList _).append hcomma
    simpa only [List.append_assoc] using hkeeps
  calm blanks rest := by
    rw [List.append_assoc (codes before.toList)]
    exact h.calm blanks _ rest

/-- An expression for a text, as it is written, with its lexemes. -/
structure Spelled (shown : List Char) (lexemes : List Lexeme) : Prop where
  reads : Reads .code shown lexemes .code
  after : ∀ rest, afterExpression? (lexemes ++ rest) = some rest

theorem spelled_short (text : String) :
    Spelled ("::std::string::String::from(".toList ++ ((Literal.literal text).toList ++ ")".toList))
      (codes opening ++ .literal text.toList :: codes ")".toList) where
  reads := by
    have hopens : Reads .code opening (codes opening) .code := by decide
    have hcloses : Reads .closed ")".toList (codes ")".toList) .code := by decide
    exact hopens.append ((reads_literal text).append hcloses)
  after rest := by
    have hshort : afterShort? (codes opening ++ .literal text.toList :: (codes ")".toList ++ rest)) =
        some rest := afterCall?_codes _ _ _ _
    rw [List.append_assoc, List.cons_append, afterExpression?, hshort, Option.some_or]

/-- The end of a line, and the blanks of the next one. -/
def row (blanks : Nat) : List Lexeme := newline :: blanksOf blanks

theorem reads_row {mode last : Mode} (hmode : mode ∈ midst)
    (hhead : ∃ c rest, text = c :: rest ∧ c ≠ ' ' ∧ c ≠ '/') (h : Reads .code text lexemes last) (blanks : Nat) :
    Reads mode ('\n' :: (List.replicate blanks ' ' ++ text)) (row blanks ++ lexemes) last := by
  have hblanks := reads_blanks 0 blanks
  rw [Nat.zero_add] at hblanks
  have hline := (reads_newline hmode).append (hblanks.append (reads_indented hhead h blanks))
  exact hline

theorem dropWhile_row (blanks : Nat) {lexeme : Lexeme} (h : isGap lexeme = false) (rest : List Lexeme) :
    (row blanks ++ lexeme :: rest).dropWhile isGap = lexeme :: rest := by
  rw [List.dropWhile_append_of_pos, List.dropWhile_cons_of_neg (by simp [h])]
  intro other hother
  rcases List.mem_cons.1 hother with rfl | hblank
  · rfl
  · rw [List.eq_of_mem_replicate hblank]
    rfl

def pushRow (blanks : Nat) (piece : List Char) : List Lexeme :=
  row blanks ++ (codes "builder.push_str(".toList ++ .literal piece :: codes ");".toList)

theorem reads_pushRow (blanks : Nat) (piece : List Char) :
    Reads .code ('\n' :: (List.replicate blanks ' ' ++ ("builder.push_str(".toList ++
      ((Literal.literal (String.ofList piece)).toList ++ ");".toList)))) (pushRow blanks piece) .code := by
  have hopens : Reads .code "builder.push_str(".toList (codes "builder.push_str(".toList) .code := by
    decide
  have hcloses : Reads .closed ");".toList (codes ");".toList) .code := by decide
  have hliteral := reads_literal (String.ofList piece)
  rw [String.toList_ofList] at hliteral
  exact reads_row List.mem_cons_self ⟨'b', _, rfl, by decide, by decide⟩
    (hopens.append (hliteral.append hcloses)) blanks

theorem afterPush?_pushRow (blanks : Nat) (piece : List Char) (rest : List Lexeme) :
    afterPush? (pushRow blanks piece ++ rest) = some rest := by
  have hdrop : (pushRow blanks piece ++ rest).dropWhile isGap =
      codes "builder.push_str(".toList ++ .literal piece :: (codes ");".toList ++ rest) := by
    rw [pushRow, List.append_assoc, List.append_assoc, List.cons_append]
    exact dropWhile_row blanks rfl _
  rw [afterPush?, hdrop]
  exact afterCall?_codes _ _ _ _

theorem afterPushes_pushRows (blanks : Nat) (pieces : List (List Char)) (hrest : afterPush? rest = none) :
    afterPushes (pieces.flatMap (pushRow blanks) ++ rest) = rest := by
  induction pieces with
  | nil =>
    rw [List.flatMap_nil, List.nil_append, afterPushes]
    split
    · rename_i later hsome
      rw [hrest] at hsome
      simp at hsome
    · rfl
  | cons piece others ih =>
    rw [List.flatMap_cons, List.append_assoc, afterPushes]
    split
    · rename_i later hsome
      rw [afterPush?_pushRow] at hsome
      rw [← Option.some.inj hsome, ih]
    · rename_i hnone
      rw [afterPush?_pushRow] at hnone
      simp at hnone

theorem reads_pushRows (blanks : Nat) (pieces : List (List Char)) :
    Reads .code (pieces.flatMap fun piece => '\n' :: (List.replicate blanks ' ' ++
      ("builder.push_str(".toList ++ ((Literal.literal (String.ofList piece)).toList ++ ");".toList))))
      (pieces.flatMap (pushRow blanks)) .code := by
  induction pieces with
  | nil => exact .nil
  | cons piece others ih =>
    rw [List.flatMap_cons, List.flatMap_cons]
    exact (reads_pushRow blanks piece).append ih

def capacityRow (blanks capacity : Nat) : List Lexeme :=
  row blanks ++ (codes "let mut builder = ::std::string::String::with_capacity(".toList ++
    (codes capacity.repr.toList ++ codes ");".toList))

theorem isPath_repr (number : Nat) : IsPath number.repr.toList := by
  intro c hc
  left
  rw [isWord, Char.isAlphanum, Text.isDigit_of_mem_repr hc, Bool.or_true, Bool.true_or]

theorem reads_capacityRow (blanks capacity : Nat) :
    Reads .code ('\n' :: (List.replicate blanks ' ' ++
      ("let mut builder = ::std::string::String::with_capacity(".toList ++
        (capacity.repr.toList ++ ");".toList)))) (capacityRow blanks capacity) .code := by
  have hopens : Codes "let mut builder = ::std::string::String::with_capacity(".toList := by decide
  have hcloses : Opens ");".toList := by decide
  have hline := hopens.opens ((isPath_repr capacity).codes.opens hcloses) .code List.mem_cons_self
  rw [codes_append, codes_append] at hline
  exact reads_row List.mem_cons_self ⟨'l', _, rfl, by decide, by decide⟩ hline blanks

def builderRows (blanks capacity : Nat) (pieces : List (List Char)) : List Lexeme :=
  codes "\x7b".toList ++ (capacityRow (blanks + 4) capacity ++ (pieces.flatMap (pushRow (blanks + 4)) ++
    (row (blanks + 4) ++ (codes "builder".toList ++ (row blanks ++ codes "\x7d".toList)))))

theorem reads_builderRows (blanks capacity : Nat) (pieces : List (List Char)) :
    Reads .code (Literal.builderBlock (List.replicate blanks ' ') capacity pieces)
      (builderRows blanks capacity pieces) .code := by
  have hdeeper : ∀ text : List Char, List.replicate blanks ' ' ++ ("    ".toList ++ text) =
      List.replicate (blanks + 4) ' ' ++ text := by
    intro text
    rw [← List.append_assoc, List.replicate_add]
    rfl
  have hopens : Reads .code "\x7b".toList (codes "\x7b".toList) .code := by decide
  have hlast : Reads .code ('\n' :: (List.replicate (blanks + 4) ' ' ++ "builder".toList))
      (row (blanks + 4) ++ codes "builder".toList) .word :=
    reads_row (by decide) ⟨'b', _, rfl, by decide, by decide⟩ (by decide) (blanks + 4)
  have hcloses : Reads .word ('\n' :: (List.replicate blanks ' ' ++ "\x7d".toList))
      (row blanks ++ codes "\x7d".toList) .code :=
    reads_row (by decide) ⟨'\x7d', _, rfl, by decide, by decide⟩ (by decide) blanks
  have hblock := hopens.append ((reads_capacityRow (blanks + 4) capacity).append
    ((reads_pushRows (blanks + 4) pieces).append (hlast.append hcloses)))
  simp only [Literal.builderBlock, Literal.pushLine, List.append_assoc, List.cons_append, hdeeper,
    builderRows]
  simpa only [List.append_assoc, List.cons_append] using hblock

theorem dropWhile_repr (number : Nat) (rest : List Lexeme) :
    (codes number.repr.toList ++ (codes ");".toList ++ rest)).dropWhile isDigit = codes ");".toList ++ rest := by
  rw [List.dropWhile_append_of_pos]
  · rfl
  · intro lexeme hlexeme
    obtain ⟨c, hc, rfl⟩ := List.mem_map.1 hlexeme
    exact Text.isDigit_of_mem_repr hc

theorem afterPush?_builder (blanks : Nat) {c : Char} (hc : c ≠ '.') (rest : List Lexeme) :
    afterPush? (row blanks ++ (codes "builder".toList ++ .code c :: rest)) = none := by
  have hdrop : (row blanks ++ (codes "builder".toList ++ .code c :: rest)).dropWhile isGap =
      codes "builder".toList ++ .code c :: rest := dropWhile_row blanks rfl _
  rw [afterPush?, hdrop, Option.eq_none_iff_forall_ne_some]
  intro later hlater
  obtain ⟨text, heq⟩ := eq_of_afterCall? hlater
  have hdiffer := @List.append_cancel_left _ (codes "builder".toList) _ _ (heq.trans
    (show codes "builder.push_str(".toList ++ _ = codes "builder".toList ++ (codes ".push_str(".toList ++ _)
      from rfl))
  exact hc (Lexeme.code.inj (List.cons.inj hdiffer).1)

theorem afterBuilder?_builderRows (blanks capacity : Nat) (pieces : List (List Char)) (rest : List Lexeme) :
    afterBuilder? (builderRows blanks capacity pieces ++ rest) = some rest := by
  let closing := row blanks ++ (codes "\x7d".toList ++ rest)
  let ending := row (blanks + 4) ++ (codes "builder".toList ++ closing)
  let pushes := pieces.flatMap (pushRow (blanks + 4)) ++ ending
  let capacities := codes capacity.repr.toList ++ (codes ");".toList ++ pushes)
  have hopening : (row (blanks + 4) ++ (codes
      "let mut builder = ::std::string::String::with_capacity(".toList ++ capacities)).dropWhile isGap =
        codes "let mut builder = ::std::string::String::with_capacity(".toList ++ capacities :=
    dropWhile_row (blanks + 4) rfl _
  have hcapacities : capacities.dropWhile isDigit = codes ");".toList ++ pushes := dropWhile_repr capacity _
  have hpushes : afterPushes pushes = ending :=
    afterPushes_pushRows _ _ (afterPush?_builder (blanks + 4) (by decide) _)
  have hending : ending.dropWhile isGap = codes "builder".toList ++ closing :=
    dropWhile_row (blanks + 4) rfl _
  have hclosing : closing.dropWhile isGap = codes "\x7d".toList ++ rest := dropWhile_row blanks rfl _
  have hrows : builderRows blanks capacity pieces ++ rest = codes "\x7b".toList ++ (row (blanks + 4) ++
      (codes "let mut builder = ::std::string::String::with_capacity(".toList ++ capacities)) := by
    simp only [builderRows, capacityRow, capacities, pushes, ending, closing, List.append_assoc]
  simp only [hrows, afterBuilder?, after?_codes, Option.bind_eq_bind, Option.bind_some, hopening, hcapacities,
    hpushes, hending, hclosing]

theorem spelled_builder (blanks capacity : Nat) (pieces : List (List Char)) :
    Spelled (Literal.builderBlock (List.replicate blanks ' ') capacity pieces)
      (builderRows blanks capacity pieces) where
  reads := reads_builderRows blanks capacity pieces
  after rest := by
    have hshort : afterShort? (builderRows blanks capacity pieces ++ rest) = none :=
      afterShort?_of_ne (by decide) _
    rw [afterExpression?, hshort, afterBuilder?_builderRows, Option.none_or]

/-- Short or long, an expression for a text is taken out as a whole. -/
theorem exists_spelled (blanks : Nat) (text : String) :
    ∃ lexemes, Spelled (Literal.shown (List.replicate blanks ' ') text) lexemes := by
  unfold Literal.shown
  split
  · rename_i hshort
    rw [Literal.toList_stringExpression_of_le hshort]
    exact ⟨_, spelled_short text⟩
  · exact ⟨_, spelled_builder _ _ _⟩

end BundleForge.Lexical
