import BundleForge.Proofs.Literal
import BundleForge.Proofs.Text
/-!
# The lexical rules of generated code

A reader goes through a text from left to right, and in each mode a character leads to a next one. A line
comment that stands alone on its line is passed over with its line; what remains are literals, each of them one
lexeme with the text it denotes, and the characters of the code around them. The reader knows the rules of the
generated language as far as generated modules use them and refuses everything else: comments behind code or for
documentation, literals that span lines or have a prefix or a suffix, literals for characters, and characters
outside of literals and comments that are not ASCII. What it accepts, it reads as the language does.
-/

namespace BundleForge.Lexical

inductive Lexeme where
  | code (c : Char)
  | literal (text : List Char)
deriving DecidableEq, Repr

inductive Mode where
  /-- Nothing but blanks on the line so far; they belong to the code if no comment follows. -/
  | start (blanks : Nat)
  | slash
  | opened
  | comment
  | code
  /-- Behind a character of a word, where a quote would have a prefix. -/
  | word
  /-- Behind a single quote, which opens the name of a lifetime. -/
  | tick
  /-- Behind a literal, where a word would be its suffix. -/
  | closed
  | literal (text : List Char)
  | escape (text : List Char)
deriving DecidableEq, Repr

def isWord (c : Char) : Bool := c.isAlphanum || c == '_'

/-- The characters besides those of words that stand for themselves. -/
def isMark (c : Char) : Bool := " !#$%&()*+,-.:;<=>?@[]^\x7b|\x7d~".toList.contains c

/-- Code, one lexeme for each character. -/
def codes (text : List Char) : List Lexeme := text.map .code

def blanksOf (blanks : Nat) : List Lexeme := List.replicate blanks (.code ' ')

def commentStep (c : Char) : Option (List Lexeme × Mode) :=
  if c = '\n' then some ([], .start 0)
  else if c = '\r' then none
  else some ([], .comment)

def codeStep (c : Char) : Option (List Lexeme × Mode) :=
  if c = '\n' then some ([.code c], .start 0)
  else if c = '"' then some ([], .literal [])
  else if c = '\'' then some ([.code c], .tick)
  else if isWord c then some ([.code c], .word)
  else if isMark c then some ([.code c], .code)
  else none

def step : Mode → Char → Option (List Lexeme × Mode)
  | .start blanks, c =>
    if c = ' ' then some ([], .start (blanks + 1))
    else if c = '/' then some ([], .slash)
    else (codeStep c).map fun (lexemes, next) => (blanksOf blanks ++ lexemes, next)
  | .slash, c => if c = '/' then some ([], .opened) else none
  | .opened, c => if c = '/' ∨ c = '!' then none else commentStep c
  | .comment, c => commentStep c
  | .code, c => codeStep c
  | .word, c => if c = '"' ∨ c = '\'' ∨ c = '#' then none else codeStep c
  | .tick, c => if c.isAlpha || c == '_' then some ([.code c], .word) else none
  | .closed, c => if isWord c || c == '#' then none else codeStep c
  | .literal text, c =>
    if c = '"' then some ([.literal text], .closed)
    else if c = '\\' then some ([], .escape text)
    else if c = '\n' ∨ c = '\r' then none
    else some ([], .literal (text ++ [c]))
  | .escape text, c => (Literal.unescape? c).map fun denoted => ([], .literal (text ++ [denoted]))

def read (mode : Mode) : List Char → Option (List Lexeme × Mode)
  | [] => some ([], mode)
  | c :: rest => do
    let (first, next) ← step mode c
    let (others, last) ← read next rest
    return (first ++ others, last)

def lexemes? (source : String) : Option (List Lexeme) :=
  match read (.start 0) source.toList with
  | some (lexemes, .start 0) => some lexemes
  | _ => none

def Reads (mode : Mode) (text : List Char) (lexemes : List Lexeme) (last : Mode) : Prop :=
  read mode text = some (lexemes, last)

instance (mode : Mode) (text : List Char) (lexemes : List Lexeme) (last : Mode) :
    Decidable (Reads mode text lexemes last) :=
  inferInstanceAs (Decidable (_ = _))

variable {mode next last : Mode} {c : Char} {text rest : List Char} {first others : List Lexeme}

theorem Reads.nil : Reads mode [] [] mode := rfl

theorem Reads.cons (hstep : step mode c = some (first, next)) (h : Reads next rest others last) :
    Reads mode (c :: rest) (first ++ others) last := by
  unfold Reads at h ⊢
  rw [read, hstep]
  simp only [Option.bind_eq_bind, Option.bind_some, h, Option.pure_def]

theorem Reads.skip (hstep : step mode c = some ([], next)) (h : Reads next rest others last) :
    Reads mode (c :: rest) others last :=
  .cons hstep h

theorem Reads.append (h : Reads mode text first next) (hrest : Reads next rest others last) :
    Reads mode (text ++ rest) (first ++ others) last := by
  induction text generalizing mode first with
  | nil =>
    obtain ⟨rfl, rfl⟩ := Prod.mk.inj (Option.some.inj h)
    exact hrest
  | cons c text ih =>
    unfold Reads at h
    simp only [read, Option.bind_eq_bind, Option.bind_eq_some_iff, Option.pure_def, Prod.exists] at h
    obtain ⟨one, middle, hstep, more, last', hmore, heq⟩ := h
    obtain ⟨rfl, rfl⟩ := Prod.mk.inj (Option.some.inj heq)
    rw [List.append_assoc]
    exact .cons hstep (ih hmore)

theorem Reads.cons_of_code (hstep : step mode c = some ([.code c], next))
    (h : Reads next rest (codes rest) last) : Reads mode (c :: rest) (codes (c :: rest)) last :=
  .cons hstep h

theorem lexemes?_of_reads {source : String} {lexemes : List Lexeme}
    (h : Reads (.start 0) source.toList lexemes (.start 0)) : lexemes? source = some lexemes := by
  unfold Reads at h
  rw [lexemes?, h]
  rfl

theorem codes_append (text rest : List Char) : codes (text ++ rest) = codes text ++ codes rest :=
  List.map_append

/-! ### Lines -/

theorem reads_blanks (blanks count : Nat) :
    Reads (.start blanks) (List.replicate count ' ') [] (.start (blanks + count)) := by
  induction count generalizing blanks with
  | zero => exact .nil
  | succ count ih =>
    have hrest := ih (blanks + 1)
    rw [Nat.add_right_comm] at hrest
    exact .skip rfl hrest

theorem reads_comment {line : List Char} (h : ∀ c ∈ line, c ≠ '\n' ∧ c ≠ '\r') :
    Reads .comment (line ++ ['\n']) [] (.start 0) := by
  induction line with
  | nil => rfl
  | cons c rest ih =>
    rw [List.forall_mem_cons] at h
    have hstep : step .comment c = some ([], .comment) := by
      simp only [step, commentStep, if_neg h.1.1, if_neg h.1.2]
    exact .cons hstep (ih h.2)

theorem reads_commentLine {line : List Char} (h : ∀ c ∈ line, c ≠ '\n' ∧ c ≠ '\r') (blanks : Nat) :
    Reads (.start blanks) ("// ".toList ++ line ++ ['\n']) [] (.start 0) := by
  have hopen : Reads (.start blanks) "// ".toList [] .comment :=
    .skip rfl (.skip rfl (.skip rfl .nil))
  rw [List.append_assoc]
  exact hopen.append (reads_comment h)

theorem Reads.of_start {lexemes : List Lexeme} (h : Reads .code (c :: rest) lexemes last)
    (hblank : c ≠ ' ') (hslash : c ≠ '/') (blanks : Nat) :
    Reads (.start blanks) (c :: rest) (blanksOf blanks ++ lexemes) last := by
  unfold Reads at h
  simp only [read, Option.bind_eq_bind, Option.bind_eq_some_iff, Option.pure_def, Prod.exists] at h
  obtain ⟨one, middle, hstep, more, last', hmore, heq⟩ := h
  obtain ⟨rfl, rfl⟩ := Prod.mk.inj (Option.some.inj heq)
  have hcode : codeStep c = some (one, middle) := hstep
  rw [← List.append_assoc]
  refine .cons ?_ hmore
  simp only [step, if_neg hblank, if_neg hslash, hcode, Option.map_some]

/-! ### Code -/

/-- The modes in the midst of code. -/
def midst : List Mode := [.code, .word]

/-- A text that is code wherever it stands in a line of code. -/
def Codes (text : List Char) : Prop :=
  ∀ mode ∈ midst, ∃ last ∈ midst, Reads mode text (codes text) last

/-- The same, with an end behind which a literal may follow. -/
def Opens (text : List Char) : Prop :=
  ∀ mode ∈ midst, Reads mode text (codes text) .code

/-- A text that is code behind a literal. -/
def Closes (text : List Char) : Prop :=
  ∃ last ∈ midst, Reads .closed text (codes text) last

instance (text : List Char) : Decidable (Codes text) :=
  inferInstanceAs (Decidable (∀ mode ∈ midst, ∃ last ∈ midst, Reads mode text (codes text) last))

instance (text : List Char) : Decidable (Opens text) :=
  inferInstanceAs (Decidable (∀ mode ∈ midst, Reads mode text (codes text) .code))

instance (text : List Char) : Decidable (Closes text) :=
  inferInstanceAs (Decidable (∃ last ∈ midst, Reads .closed text (codes text) last))

theorem Codes.append (h : Codes text) (hrest : Codes rest) : Codes (text ++ rest) := by
  intro mode hmode
  obtain ⟨next, hnext, hreads⟩ := h mode hmode
  obtain ⟨last, hlast, hreads'⟩ := hrest next hnext
  refine ⟨last, hlast, ?_⟩
  rw [codes_append]
  exact hreads.append hreads'

theorem Codes.opens (h : Codes text) (hrest : Opens rest) : Opens (text ++ rest) := by
  intro mode hmode
  obtain ⟨next, hnext, hreads⟩ := h mode hmode
  rw [codes_append]
  exact hreads.append (hrest next hnext)

theorem Closes.append (h : Closes text) (hrest : Codes rest) : Closes (text ++ rest) := by
  obtain ⟨next, hnext, hreads⟩ := h
  obtain ⟨last, hlast, hreads'⟩ := hrest next hnext
  refine ⟨last, hlast, ?_⟩
  rw [codes_append]
  exact hreads.append hreads'

theorem reads_newline (hmode : mode ∈ midst) : Reads mode ['\n'] [.code '\n'] (.start 0) := by
  rcases List.mem_cons.1 hmode with rfl | hmode
  · rfl
  · rw [List.mem_singleton.1 hmode]
    rfl

/-- A path or a name: it consists of characters of words and of colons. -/
def IsPath (text : List Char) : Prop := ∀ c ∈ text, isWord c = true ∨ c = ':'

theorem IsPath.append (h : IsPath text) (hrest : IsPath rest) : IsPath (text ++ rest) :=
  List.forall_mem_append.2 ⟨h, hrest⟩

theorem step_of_isWord (h : isWord c = true) (hmode : mode ∈ midst) :
    step mode c = some ([.code c], .word) := by
  have hne : ∀ d : Char, isWord d = false → c ≠ d := by
    intro d hd heq
    rw [heq, hd] at h
    simp at h
  have hcode : codeStep c = some ([.code c], .word) := by
    rw [codeStep, if_neg (hne '\n' rfl), if_neg (hne '"' rfl), if_neg (hne '\'' rfl), if_pos h]
  rcases List.mem_cons.1 hmode with rfl | hmode
  · exact hcode
  · have hopen : ¬ (c = '"' ∨ c = '\'' ∨ c = '#') := by
      rintro (heq | heq | heq)
      · exact hne _ rfl heq
      · exact hne _ rfl heq
      · exact hne _ rfl heq
    rw [List.mem_singleton.1 hmode, step, if_neg hopen]
    exact hcode

theorem IsPath.codes (h : IsPath text) : Codes text := by
  induction text with
  | nil => exact fun mode hmode => ⟨mode, hmode, .nil⟩
  | cons c rest ih =>
    intro mode hmode
    rcases h c List.mem_cons_self with hword | rfl
    · obtain ⟨last, hlast, hreads⟩ := ih (fun d hd => h d (List.mem_cons_of_mem _ hd)) .word
        (List.mem_cons_of_mem _ List.mem_cons_self)
      exact ⟨last, hlast, .cons_of_code (step_of_isWord hword hmode) hreads⟩
    · obtain ⟨last, hlast, hreads⟩ := ih (fun d hd => h d (List.mem_cons_of_mem _ hd)) .code
        List.mem_cons_self
      refine ⟨last, hlast, .cons_of_code ?_ hreads⟩
      rcases List.mem_cons.1 hmode with rfl | hmode
      · rfl
      · rw [List.mem_singleton.1 hmode]
        rfl

/-! ### Literals -/

theorem reads_escape (done text : List Char) :
    Reads (.literal done) (text.flatMap Literal.escapeChar ++ ['"']) [.literal (done ++ text)] .closed := by
  induction text generalizing done with
  | nil =>
    rw [List.append_nil]
    rfl
  | cons c rest ih =>
    have hrest := ih (done ++ [c])
    rw [List.append_assoc, List.singleton_append] at hrest
    rw [List.flatMap_cons, List.append_assoc]
    -- Only what would end the literal or the line is escaped.
    have hescape : ∀ d, Literal.escapeChar c = ['\\', d] → Literal.unescape? d = some c →
        Reads (.literal done) (Literal.escapeChar c) [] (.literal (done ++ [c])) := by
      intro d hd hc
      have hstep : step (.escape done) d = some ([], .literal (done ++ [c])) := by
        rw [step, hc]
        rfl
      rw [hd]
      exact .skip rfl (.skip hstep .nil)
    suffices hchar : Reads (.literal done) (Literal.escapeChar c) [] (.literal (done ++ [c])) from
      hchar.append hrest
    by_cases hbackslash : c = '\\'
    · exact hescape '\\' (by simp [hbackslash, Literal.escapeChar]) (by rw [hbackslash]; rfl)
    by_cases hquote : c = '"'
    · exact hescape '"' (by simp [hquote, Literal.escapeChar]) (by rw [hquote]; rfl)
    by_cases hnewline : c = '\n'
    · exact hescape 'n' (by simp [hnewline, Literal.escapeChar]) (by rw [hnewline]; rfl)
    by_cases hreturn : c = '\r'
    · exact hescape 'r' (by simp [hreturn, Literal.escapeChar]) (by rw [hreturn]; rfl)
    by_cases hnul : c = '\x00'
    · exact hescape '0' (by simp [hnul, Literal.escapeChar]) (by rw [hnul]; rfl)
    have hsame : Literal.escapeChar c = [c] := by
      simp [Literal.escapeChar, hbackslash, hquote, hnewline, hreturn, hnul]
    have hstep : step (.literal done) c = some ([], .literal (done ++ [c])) := by
      rw [step, if_neg hquote, if_neg hbackslash, if_neg (not_or.2 ⟨hnewline, hreturn⟩)]
    rw [hsame]
    exact .skip hstep .nil

theorem reads_literal (text : String) :
    Reads .code (Literal.literal text).toList [.literal text.toList] .closed := by
  have hliteral : (Literal.literal text).toList =
      '"' :: (text.toList.flatMap Literal.escapeChar ++ ['"']) := by
    simp [Literal.literal, Literal.escape]
  rw [hliteral]
  exact .skip rfl (reads_escape [] text.toList)

end BundleForge.Lexical
