import BundleForge.Literal
import BundleForge.Proofs.Text
import Mathlib.Data.List.Basic
import Mathlib.Data.List.TakeDrop
/-!
# Reading texts back

The generated language has its own rules for literals: one ends at the first quote that no backslash
escapes, and five escapes denote characters that do not stand for themselves. `StringExpression.read?`
reads an expression for a text by these rules, either a single literal or a block that appends literals
to a builder. Between tokens it passes over blanks and newlines, so it does not matter to it how the
lines of a block are indented.
-/

namespace BundleForge.Literal

/-! ### Pieces -/

/-- Pieces that make up a text, each of them full but for the last. -/
structure Cuts (limit : Nat) (text : List Char) (pieces : List (List Char)) : Prop where
  flatten : pieces.flatten = text
  nonempty : [] ∉ pieces
  full : ∀ piece ∈ pieces.dropLast, piece.length = limit
  last : ∀ piece ∈ pieces.getLast?, piece.length ≤ limit

section

variable {limit : Nat} {text : List Char} {pieces : List (List Char)}

theorem cuts_nil (limit : Nat) : Cuts limit [] [] where
  flatten := rfl
  nonempty := List.not_mem_nil
  full _ h := absurd h List.not_mem_nil
  last _ h := absurd h (Option.not_mem_none _)

theorem Cuts.cons {piece : List Char} (h : Cuts limit text pieces) (hnonempty : piece ≠ [])
    (hlength : piece.length ≤ limit) (hfull : text ≠ [] → piece.length = limit) :
    Cuts limit (piece ++ text) (piece :: pieces) := by
  refine ⟨by rw [List.flatten_cons, h.flatten], ?_, ?_, ?_⟩
  · exact fun hmem => (List.mem_cons.1 hmem).elim (fun heq => hnonempty heq.symm) h.nonempty
  · cases pieces with
    | nil => exact fun _ hmem => absurd hmem List.not_mem_nil
    | cons next others =>
      have htext : text ≠ [] := by
        rw [← h.flatten]
        exact List.flatten_ne_nil_iff.2 ⟨next, List.mem_cons_self, fun hnil => h.nonempty (hnil ▸ List.mem_cons_self)⟩
      rw [List.dropLast_cons_cons]
      exact List.forall_mem_cons.2 ⟨hfull htext, h.full⟩
  · cases pieces with
    | nil =>
      intro other hother
      rw [List.getLast?_singleton] at hother
      rwa [← Option.some.inj hother]
    | cons next others =>
      rw [List.getLast?_cons_cons]
      exact h.last

theorem chunks_nil (limit : Nat) : chunks limit [] = [] := by
  rw [chunks, dif_pos rfl]

theorem chunks_of_ne_nil (h : text ≠ []) :
    chunks limit text = text.take (max limit 1) :: chunks limit (text.drop (max limit 1)) := by
  rw [chunks, dif_neg h]

theorem cuts_chunks (limit : Nat) (text : List Char) : Cuts (max limit 1) text (chunks limit text) := by
  induction text using chunks.induct limit with
  | case1 =>
    rw [chunks_nil]
    exact cuts_nil _
  | case2 text hne ih =>
    have hpos : 0 < text.length := List.length_pos_iff.2 hne
    have hnonempty : text.take (max limit 1) ≠ [] :=
      List.ne_nil_of_length_pos (by rw [List.length_take]; omega)
    have hfull (hrest : text.drop (max limit 1) ≠ []) : (text.take (max limit 1)).length = max limit 1 := by
      have hmore := List.length_pos_iff.2 hrest
      rw [List.length_drop] at hmore
      rw [List.length_take]
      omega
    have hcuts := ih.cons hnonempty (List.length_take_le _ _) hfull
    rwa [List.take_append_drop, ← chunks_of_ne_nil hne] at hcuts

theorem flatten_chunks (limit : Nat) (text : List Char) : (chunks limit text).flatten = text :=
  (cuts_chunks limit text).flatten

theorem Cuts.length_of_mem (h : Cuts limit text pieces) {piece : List Char} (hpiece : piece ∈ pieces) :
    1 ≤ piece.length ∧ piece.length ≤ limit := by
  refine ⟨List.length_pos_iff.2 fun hnil => h.nonempty (hnil ▸ hpiece), ?_⟩
  obtain rfl | ⟨before, last, rfl⟩ := pieces.eq_nil_or_concat
  · exact absurd hpiece List.not_mem_nil
  · rw [List.concat_eq_append, List.mem_append, List.mem_singleton] at hpiece
    rcases hpiece with hbefore | rfl
    · exact Nat.le_of_eq (h.full piece (by simpa using hbefore))
    · exact h.last piece (by simp)

theorem length_of_mem_chunks (hlimit : 1 ≤ limit) {piece : List Char} (h : piece ∈ chunks limit text) :
    1 ≤ piece.length ∧ piece.length ≤ limit := by
  have hcuts := cuts_chunks limit text
  rw [Nat.max_eq_left hlimit] at hcuts
  exact hcuts.length_of_mem h

end

/-! ### Reading a literal -/

def unescape? : Char → Option Char
  | '\\' => some '\\'
  | '"' => some '"'
  | 'n' => some '\n'
  | 'r' => some '\r'
  | '0' => some '\x00'
  | _ => none

/-- The text a literal denotes, from behind its opening quote on, and what follows the literal. -/
def readBody? : List Char → Option (List Char × List Char)
  | [] => none
  | '"' :: after => some ([], after)
  | '\\' :: [] => none
  | '\\' :: c :: rest => do
    let denoted ← unescape? c
    let (text, after) ← readBody? rest
    return (denoted :: text, after)
  | c :: rest =>
    if c = '\n' ∨ c = '\r' then none
    else do
      let (text, after) ← readBody? rest
      return (c :: text, after)

theorem length_of_readBody? {input text after : List Char}
    (h : readBody? input = some (text, after)) : after.length < input.length := by
  induction input using readBody?.induct generalizing text after with
  | case1 => simp [readBody?] at h
  | case2 after' =>
    obtain ⟨-, rfl⟩ := Prod.mk.inj (Option.some.inj h)
    exact Nat.lt_succ_self _
  | case3 => simp [readBody?] at h
  | case4 c rest ih =>
    simp only [readBody?, Option.bind_eq_bind, Option.bind_eq_some_iff] at h
    obtain ⟨denoted, -, ⟨text', after'⟩, hrest, heq⟩ := h
    obtain ⟨-, rfl⟩ := Prod.mk.inj (Option.some.inj heq)
    have := ih hrest
    simp only [List.length_cons]
    omega
  | case5 c rest hquote hlone hescape hbreak =>
    simp [readBody?, hbreak] at h
  | case6 c rest hquote hlone hescape hbreak ih =>
    simp only [readBody?, if_neg hbreak, Option.bind_eq_bind, Option.bind_eq_some_iff] at h
    obtain ⟨⟨text', after'⟩, hrest, heq⟩ := h
    obtain ⟨-, rfl⟩ := Prod.mk.inj (Option.some.inj heq)
    have := ih hrest
    simp only [List.length_cons]
    omega

/-- An escaped text is read back up to the quote that closes it. -/
theorem readBody?_escape (text after : List Char) :
    readBody? (text.flatMap escapeChar ++ '"' :: after) = some (text, after) := by
  induction text with
  | nil => rfl
  | cons c rest ih =>
    rw [List.flatMap_cons, List.append_assoc]
    by_cases hbackslash : c = '\\'
    · simp [hbackslash, escapeChar, readBody?, unescape?, ih]
    by_cases hquote : c = '"'
    · simp [hquote, escapeChar, readBody?, unescape?, ih]
    by_cases hnewline : c = '\n'
    · simp [hnewline, escapeChar, readBody?, unescape?, ih]
    by_cases hreturn : c = '\r'
    · simp [hreturn, escapeChar, readBody?, unescape?, ih]
    by_cases hnul : c = '\x00'
    · simp [hnul, escapeChar, readBody?, unescape?, ih]
    simp [escapeChar, hbackslash, hquote, hnewline, hreturn, hnul, readBody?, ih]

theorem not_mem_literal {c : Char} (hc : c = '\n' ∨ c = '\r') (text : String) :
    c ∉ (literal text).toList := by
  have hchar : ∀ d : Char, c ∉ escapeChar d := by
    intro d
    unfold escapeChar
    rcases hc with rfl | rfl
    all_goals repeat' split
    all_goals simp_all [eq_comm]
  have hescape : c ∉ text.toList.flatMap escapeChar := by
    rw [List.mem_flatMap]
    rintro ⟨d, -, hd⟩
    exact hchar d hd
  rcases hc with rfl | rfl <;> simpa [literal, escape] using hescape

/-! ### Reading tokens -/

def isBlank (c : Char) : Bool := c == ' ' || c == '\n'

/-- What follows a token at the start of an input, blanks in front of it left aside. -/
def token? (token : String) (input : List Char) : Option (List Char) :=
  let input := input.dropWhile isBlank
  if token.toList.isPrefixOf input then some (input.drop token.toList.length) else none

theorem token?_blanks {blanks : List Char} (h : ∀ c ∈ blanks, isBlank c = true) (token : String)
    (input : List Char) : token? token (blanks ++ input) = token? token input := by
  rw [token?, token?, List.dropWhile_append_of_pos h]

theorem dropWhile_isBlank_of_head {input : List Char} (h : input.head?.any (!isBlank ·) = true)
    (rest : List Char) : (input ++ rest).dropWhile isBlank = input ++ rest := by
  cases input with
  | nil => simp at h
  | cons c others =>
    have hc : isBlank c = false := by simpa using h
    rw [List.cons_append, List.dropWhile_cons_of_neg (by simp [hc])]

theorem token?_append {token : String} (h : token.toList.head?.any (!isBlank ·) = true)
    (rest : List Char) : token? token (token.toList ++ rest) = some rest := by
  rw [token?, dropWhile_isBlank_of_head h,
    if_pos (List.isPrefixOf_iff_prefix.2 (List.prefix_append _ _)), List.drop_left]

theorem token?_eq_none (common others : List Char) {token : String} {c d : Char}
    (htoken : token.toList = common ++ c :: others)
    (hblank : (common ++ [d]).head?.any (!isBlank ·) = true) (hne : c ≠ d) (rest : List Char) :
    token? token (common ++ d :: rest) = none := by
  rw [token?, List.append_cons, dropWhile_isBlank_of_head hblank, htoken, if_neg]
  rw [List.isPrefixOf_iff_prefix, ← List.append_cons, List.prefix_append_right_inj,
    List.cons_prefix_cons]
  exact fun h => hne h.1

theorem length_of_token? {token : String} {input after : List Char}
    (h : token? token input = some after) : after.length ≤ input.length := by
  rw [token?] at h
  split at h
  · rw [← Option.some.inj h, List.length_drop]
    have := (List.dropWhile_sublist isBlank (l := input)).length_le
    omega
  · simp at h

def readLiteral? (input : List Char) : Option (List Char × List Char) :=
  (token? "\"" input).bind readBody?

def readPush? (input : List Char) : Option (List Char × List Char) := do
  let input ← token? "builder.push_str(" input
  let (piece, input) ← readLiteral? input
  let input ← token? ");" input
  return (piece, input)

theorem length_of_readPush? {input piece after : List Char}
    (h : readPush? input = some (piece, after)) : after.length < input.length := by
  simp only [readPush?, readLiteral?, Option.bind_eq_bind, Option.bind_eq_some_iff] at h
  obtain ⟨opened, hopened, ⟨piece', literalEnd⟩, ⟨quoted, hquoted, hbody⟩, closed, hclosed, heq⟩ := h
  obtain ⟨-, rfl⟩ := Prod.mk.inj (Option.some.inj heq)
  have h1 := length_of_token? hopened
  have h2 := length_of_token? hquoted
  have h3 := length_of_readBody? hbody
  have h4 : closed.length ≤ literalEnd.length := length_of_token? hclosed
  omega

theorem readLiteral?_literal (text : String) (after : List Char) :
    readLiteral? ((literal text).toList ++ after) = some (text.toList, after) := by
  have hliteral : (literal text).toList ++ after =
      "\"".toList ++ (text.toList.flatMap escapeChar ++ '"' :: after) := by
    simp [literal, escape]
  rw [readLiteral?, hliteral, token?_append (by decide), Option.bind_some, readBody?_escape]

def pushLine (piece : List Char) : List Char :=
  "    ".toList ++ ("builder.push_str(".toList ++ ((literal (String.ofList piece)).toList ++
    ");".toList))

theorem isBlank_indent : ∀ c ∈ "    ".toList, isBlank c = true :=
  List.all_eq_true.1 (by decide)

theorem readPush?_pushLine {blanks : List Char} (hblanks : ∀ c ∈ blanks, isBlank c = true)
    (piece after : List Char) : readPush? (blanks ++ pushLine piece ++ after) = some (piece, after) := by
  have hline : blanks ++ pushLine piece ++ after = (blanks ++ "    ".toList) ++
      ("builder.push_str(".toList ++ ((literal (String.ofList piece)).toList ++
        (");".toList ++ after))) := by
    simp only [pushLine, List.append_assoc]
  have hindent : ∀ c ∈ blanks ++ "    ".toList, isBlank c = true :=
    List.forall_mem_append.2 ⟨hblanks, isBlank_indent⟩
  rw [readPush?, hline, token?_blanks hindent, token?_append (by decide)]
  simp only [Option.bind_eq_bind, Option.bind_some, readLiteral?_literal]
  rw [token?_append (by decide)]
  simp

def readPushes (input : List Char) : List (List Char) × List Char :=
  match _h : readPush? input with
  | none => ([], input)
  | some (piece, rest) =>
    let (pieces, after) := readPushes rest
    (piece :: pieces, after)
termination_by input.length
decreasing_by exact length_of_readPush? _h

theorem readPushes_pushLines {blanks : List Char} (hblanks : ∀ c ∈ blanks, isBlank c = true)
    (pieces : List (List Char)) {after : List Char} (hafter : readPush? after = none) :
    readPushes (pieces.flatMap (fun piece => blanks ++ pushLine piece) ++ after) =
      (pieces, after) := by
  induction pieces with
  | nil =>
    rw [List.flatMap_nil, List.nil_append, readPushes]
    split
    · rfl
    · rename_i hsome
      simp [hafter] at hsome
  | cons piece rest ih =>
    rw [List.flatMap_cons, List.append_assoc, readPushes]
    split
    · rename_i hnone
      rw [readPush?_pushLine hblanks] at hnone
      simp at hnone
    · rename_i piece' rest' hsome
      rw [readPush?_pushLine hblanks] at hsome
      obtain ⟨rfl, rfl⟩ := Prod.mk.inj (Option.some.inj hsome)
      rw [ih]

/-! ### The lines of a long text -/

/-- The text of a builder block whose lines are all indented alike. -/
def builderBlock (indent : List Char) (capacity : Nat) (pieces : List (List Char)) : List Char :=
  "\x7b".toList ++ ('\n' :: indent ++ "    ".toList ++
    ("let mut builder = ::std::string::String::with_capacity(".toList ++
      (capacity.repr.toList ++ (");".toList ++
        (pieces.flatMap (fun piece => '\n' :: indent ++ pushLine piece) ++
          ('\n' :: indent ++ "    ".toList ++ ("builder".toList ++
            ('\n' :: indent ++ "\x7d".toList))))))))

def capacityLine (capacity : Nat) : List Char :=
  "    ".toList ++ ("let mut builder = ::std::string::String::with_capacity(".toList ++
    (capacity.repr.toList ++ ");".toList))

theorem toList_builderLines (text : String) :
    (builderLines text).map String.toList =
      capacityLine text.utf8ByteSize :: (chunks chunkLimit text.toList).map pushLine ++
        ["    ".toList ++ "builder".toList] := by
  have hcapacity : "    let mut builder = ::std::string::String::with_capacity(".toList =
      "    ".toList ++ "let mut builder = ::std::string::String::with_capacity(".toList := by decide
  have hpush : "    builder.push_str(".toList = "    ".toList ++ "builder.push_str(".toList := by
    decide
  rw [builderLines, List.map_append, List.map_append, List.map_map, List.map_singleton,
    List.map_singleton, List.singleton_append]
  refine congrArg₂ _ (congrArg₂ _ ?_ (List.map_congr_left fun piece _ => ?_)) rfl
  · show ("    let mut builder = ::std::string::String::with_capacity(" ++
      text.utf8ByteSize.repr ++ ");").toList = _
    rw [String.toList_append, String.toList_append, hcapacity, capacityLine]
    simp only [List.append_assoc]
  · rw [Function.comp_apply, String.toList_append, String.toList_append, hpush, pushLine]
    simp only [List.append_assoc]

theorem toList_stringExpression_of_le {text : String} (h : text.length ≤ chunkLimit) :
    (stringExpression text).toList =
      "::std::string::String::from(".toList ++ ((literal text).toList ++ ")".toList) := by
  rw [stringExpression, if_pos h, String.toList_append, String.toList_append, List.append_assoc]

theorem toList_stringExpression_of_lt {text : String} (h : chunkLimit < text.length) :
    (stringExpression text).toList =
      "\x7b".toList ++ ((builderLines text).map String.toList ++ ["\x7d".toList]).flatMap
        ('\n' :: ·) := by
  rw [stringExpression, if_neg (Nat.not_le.2 h), String.toList_intercalate, List.map_append,
    List.map_append]
  exact Text.intercalate_cons '\n' _ _

theorem builderBlock_eq (indent : List Char) (text : String) :
    builderBlock indent text.utf8ByteSize (chunks chunkLimit text.toList) =
      "\x7b".toList ++ (((builderLines text).map String.toList).flatMap
        (fun line => '\n' :: indent ++ line) ++ ('\n' :: indent ++ "\x7d".toList)) := by
  rw [toList_builderLines, List.flatMap_append, List.flatMap_cons, List.flatMap_map,
    List.flatMap_singleton]
  simp only [builderBlock, capacityLine, List.append_assoc]

/-- An expression for a text as it is written among lines that are indented alike. -/
def shown (indent : List Char) (text : String) : List Char :=
  if text.length ≤ chunkLimit then (stringExpression text).toList
  else builderBlock indent text.utf8ByteSize (chunks chunkLimit text.toList)

theorem newline_not_mem_builderLines {text : String} {line : List Char}
    (h : line ∈ (builderLines text).map String.toList) : line ≠ [] ∧ '\n' ∉ line := by
  rw [toList_builderLines, List.mem_append, List.mem_cons, List.mem_map, List.mem_singleton] at h
  rcases h with (rfl | ⟨piece, -, rfl⟩) | rfl
  · refine ⟨by simp [capacityLine], ?_⟩
    simp only [capacityLine, List.mem_append, not_or]
    exact ⟨by decide, by decide, fun hdigit => absurd (Text.isDigit_of_mem_repr hdigit) (by decide), by decide⟩
  · refine ⟨by simp [pushLine], ?_⟩
    simp only [pushLine, List.mem_append, not_or]
    exact ⟨by decide, by decide, not_mem_literal (.inl rfl) _, by decide⟩
  · decide

end BundleForge.Literal

namespace BundleForge

/-- An expression for a text. -/
inductive StringExpression where
  | literal (text : List Char)
  | builder (pieces : List (List Char))

namespace StringExpression

open Literal

def value : StringExpression → List Char
  | literal text => text
  | builder pieces => pieces.flatten

/-- An expression that spells a text: one literal, if the text is not too long for that, else pieces
that are neither empty nor too long. -/
def Spells (text : String) : StringExpression → Prop
  | literal value => value = text.toList ∧ text.length ≤ chunkLimit
  | builder pieces => pieces.flatten = text.toList ∧ chunkLimit < text.length ∧
    ∀ piece ∈ pieces, 1 ≤ piece.length ∧ piece.length ≤ chunkLimit

theorem Spells.value_eq {text : String} {expression : StringExpression}
    (h : expression.Spells text) : expression.value = text.toList := by
  cases expression with
  | literal value => exact h.1
  | builder pieces => exact h.1

def readLiteral? (input : List Char) : Option (StringExpression × List Char) := do
  let input ← token? "::std::string::String::from(" input
  let (text, input) ← Literal.readLiteral? input
  let input ← token? ")" input
  return (literal text, input)

/-- Reads a block in which a builder of some capacity is filled and returned. -/
def readBuilder? (input : List Char) : Option (StringExpression × List Char) := do
  let input ← token? "\x7b" input
  let input ← token? "let mut builder = ::std::string::String::with_capacity(" input
  let input ← token? ");" (input.dropWhile Char.isDigit)
  let (pieces, input) := readPushes input
  let input ← token? "builder" input
  let input ← token? "\x7d" input
  return (builder pieces, input)

/-- The expression at the start of an input, and what follows it. -/
def read? (input : List Char) : Option (StringExpression × List Char) :=
  (readLiteral? input).or (readBuilder? input)

theorem read?_literal (text : String) (after : List Char) :
    read? ("::std::string::String::from(".toList ++
        ((Literal.literal text).toList ++ (")".toList ++ after))) =
      some (.literal text.toList, after) := by
  have hread : readLiteral? ("::std::string::String::from(".toList ++
      ((Literal.literal text).toList ++ (")".toList ++ after))) =
      some (.literal text.toList, after) := by
    rw [readLiteral?, token?_append (by decide)]
    simp only [Option.bind_eq_bind, Option.bind_some, readLiteral?_literal]
    rw [token?_append (by decide)]
    simp
  rw [read?, hread, Option.some_or]

/-- The line with the builder itself is not taken for one that appends: they differ behind `builder`. -/
theorem readPush?_builder {blanks : List Char} (hblanks : ∀ c ∈ blanks, isBlank c = true) (rest : List Char) :
    readPush? (blanks ++ ("builder".toList ++ '\n' :: rest)) = none := by
  have hnone : token? "builder.push_str(" ("builder".toList ++ '\n' :: rest) = none :=
    token?_eq_none "builder".toList "push_str(".toList (c := '.') (by decide) (by decide) (by decide) _
  rw [readPush?, token?_blanks hblanks, hnone]
  rfl

theorem readBuilder?_builderBlock {indent : List Char} (hindent : ∀ c ∈ indent, isBlank c = true)
    (capacity : Nat) (pieces : List (List Char)) (after : List Char) :
    readBuilder? (builderBlock indent capacity pieces ++ after) = some (.builder pieces, after) := by
  have hbreak : ∀ c ∈ '\n' :: indent, isBlank c = true :=
    List.forall_mem_cons.2 ⟨by decide, hindent⟩
  have hdeep : ∀ c ∈ '\n' :: indent ++ "    ".toList, isBlank c = true :=
    List.forall_mem_append.2 ⟨hbreak, isBlank_indent⟩
  have hend : readPush? ('\n' :: indent ++ "    ".toList ++ ("builder".toList ++
      ('\n' :: indent ++ ("\x7d".toList ++ after)))) = none := readPush?_builder hdeep _
  simp only [builderBlock, List.append_assoc, readBuilder?]
  rw [token?_append (by decide)]
  simp only [Option.bind_eq_bind, Option.bind_some]
  rw [← List.append_assoc, token?_blanks hdeep, token?_append (by decide)]
  simp only [Option.bind_some]
  rw [List.dropWhile_append_of_pos fun _ => Text.isDigit_of_mem_repr]
  have hclose : ∀ rest : List Char, (");".toList ++ rest).dropWhile Char.isDigit = ");".toList ++ rest :=
    fun _ => rfl
  rw [hclose, token?_append (by decide)]
  simp only [Option.bind_some]
  rw [← List.append_assoc ('\n' :: indent) "    ".toList, readPushes_pushLines hbreak pieces hend]
  dsimp only
  rw [token?_blanks hdeep, token?_append (by decide)]
  simp only [Option.bind_some]
  rw [token?_blanks hbreak, token?_append (by decide)]
  rfl

theorem read?_builderBlock {indent : List Char} (hindent : ∀ c ∈ indent, isBlank c = true)
    (capacity : Nat) (pieces : List (List Char)) (after : List Char) :
    read? (builderBlock indent capacity pieces ++ after) = some (.builder pieces, after) := by
  have hother : readLiteral? (builderBlock indent capacity pieces ++ after) = none := by
    have hnone : token? "::std::string::String::from(" (builderBlock indent capacity pieces ++ after) =
        none :=
      token?_eq_none [] ":std::string::String::from(".toList (c := ':') (d := '\x7b') (by decide)
        (by decide) (by decide) _
    rw [readLiteral?, hnone]
    rfl
  rw [read?, hother, readBuilder?_builderBlock hindent, Option.none_or]

/-- However an expression is indented, it is read back as one that spells its text. -/
theorem exists_read?_shown {indent : List Char} (hindent : ∀ c ∈ indent, isBlank c = true)
    (text : String) : ∃ expression : StringExpression, expression.Spells text ∧
      ∀ after, read? (shown indent text ++ after) = some (expression, after) := by
  unfold shown
  split
  · rename_i hshort
    refine ⟨.literal text.toList, ⟨rfl, hshort⟩, fun after => ?_⟩
    rw [toList_stringExpression_of_le hshort, List.append_assoc, List.append_assoc]
    exact read?_literal text after
  · rename_i hlong
    exact ⟨.builder (chunks chunkLimit text.toList), ⟨flatten_chunks _ _, Nat.not_le.1 hlong,
      fun piece hpiece => length_of_mem_chunks (by decide) hpiece⟩,
      read?_builderBlock hindent _ _⟩

end StringExpression

end BundleForge
