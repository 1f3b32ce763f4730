import BundleForge.Proofs.Identifier
import Mathlib
/-!
# Words read in one pass

A name can be read from left to right with one word that goes on and the character in front: a separator ends the
word, and so does an upper-case letter behind a lower-case letter or a digit. Nothing but separators and case is lost
on the way. Words that are joined by underscores are read back, so that the spelling in lower case is its own, and two
names share it exactly if they have the same words.
-/

namespace BundleForge.Identifier

/-! ### Runs -/

theorem words_nil : words [] = [] := rfl

/-- Characters that no word begins or ends between. -/
structure IsRun (run : List Char) : Prop where
  free : ∀ c ∈ run, isSeparator c = false
  chain : run.IsChain fun previous c => (!startsWord previous c) = true

theorem isRun_nil : IsRun [] := ⟨fun _ h => absurd h List.not_mem_nil, List.isChain_nil⟩

theorem isRun_singleton {c : Char} (h : isSeparator c = false) : IsRun [c] :=
  ⟨List.forall_mem_singleton.2 h, List.isChain_singleton c⟩

theorem IsRun.concat {run : List Char} {c : Char} (hrun : IsRun run) (hc : isSeparator c = false)
    (hprevious : run.getLast?.any (startsWord · c) = false) : IsRun (run ++ [c]) := by
  refine ⟨List.forall_mem_append.2 ⟨hrun.free, List.forall_mem_singleton.2 hc⟩, ?_⟩
  rw [List.isChain_append]
  refine ⟨hrun.chain, List.isChain_singleton c, fun previous hlast d hd => ?_⟩
  obtain rfl : c = d := by simpa using hd
  rw [Option.mem_def] at hlast
  simpa [hlast] using hprevious

theorem words_of_isRun {run : List Char} (hrun : IsRun run) :
    words run = if run = [] then [] else [run.map Char.toLower] := by
  split
  · rename_i hnil
    rw [hnil, words_nil]
  · rename_i hne
    rw [words, List.splitOnP_eq_singleton hrun.free, List.flatMap_singleton, List.splitBy_of_isChain hne hrun.chain,
      List.map_singleton]

/-- A letter that starts a word behind a run starts it wherever the run begins. -/
theorem words_append_cons_of_startsWord {run : List Char} (hrun : IsRun run) {c : Char} (hc : isSeparator c = false)
    (hprevious : run.getLast?.any (startsWord · c) = true) (rest : List Char) :
    words (run ++ c :: rest) = words run ++ words (c :: rest) := by
  obtain ⟨part, others, hparts⟩ := List.exists_cons_of_ne_nil (List.splitOnP_ne_nil isSeparator rest)
  have hcut : ∀ previous ∈ run.getLast?, (!startsWord previous c) = false := by
    intro previous hlast
    rw [Option.mem_def] at hlast
    simpa [hlast] using hprevious
  have hsplit : (c :: rest).splitOnP isSeparator = (c :: part) :: others := by
    rw [List.splitOnP_cons_eq_if_modifyHead, if_neg (by rw [hc]; decide), hparts, List.modifyHead_cons]
  rw [words, words, words, Text.splitOnP_append_of_free hrun.free, hsplit, List.modifyHead_cons, List.flatMap_cons,
    List.splitBy_append_cons part hcut, List.map_append, List.append_assoc, List.splitOnP_eq_singleton hrun.free,
    List.flatMap_singleton, List.flatMap_cons]

/-! ### One pass over a name -/

/-- What is kept of the characters that were read: the words that are over, the word that goes on, and the last
character, if it was no separator. -/
structure Reading where
  finished : List (List Char)
  pending : List Char
  previous : Option Char

namespace Reading

def start : Reading := ⟨[], [], none⟩

/-- The words that there are if no more characters follow. -/
def words (reading : Reading) : List (List Char) :=
  if reading.pending = [] then reading.finished else reading.finished ++ [reading.pending]

def next (reading : Reading) (c : Char) : Reading :=
  if isSeparator c then ⟨reading.words, [], none⟩
  else if reading.previous.any (startsWord · c) then ⟨reading.words, [c.toLower], some c⟩
  else ⟨reading.finished, reading.pending ++ [c.toLower], some c⟩

/-- The reading of a name in which a run goes on behind some words. -/
def within (finished : List (List Char)) (run : List Char) : Reading :=
  ⟨finished, run.map Char.toLower, run.getLast?⟩

section

variable {run : List Char} (finished : List (List Char))

theorem previous_within : (within finished run).previous = run.getLast? := rfl

theorem words_within (hrun : IsRun run) : (within finished run).words = finished ++ Identifier.words run := by
  rw [words_of_isRun hrun, Reading.words, within]
  simp only [List.map_eq_nil_iff]
  split
  · rw [List.append_nil]
  · rfl

theorem next_within_of_isSeparator (hrun : IsRun run) {c : Char} (hc : isSeparator c = true) :
    (within finished run).next c = within (finished ++ Identifier.words run) [] := by
  rw [next, if_pos hc, words_within finished hrun]
  rfl

theorem next_within_of_startsWord (hrun : IsRun run) {c : Char} (hc : isSeparator c = false)
    (hprevious : run.getLast?.any (startsWord · c) = true) :
    (within finished run).next c = within (finished ++ Identifier.words run) [c] := by
  rw [next, if_neg (by rw [hc]; decide), previous_within, if_pos hprevious, words_within finished hrun]
  rfl

theorem next_within {c : Char} (hc : isSeparator c = false)
    (hprevious : run.getLast?.any (startsWord · c) = false) :
    (within finished run).next c = within finished (run ++ [c]) := by
  rw [next, if_neg (by rw [hc]; decide), previous_within, if_neg (by rw [hprevious]; decide), within, within,
    List.map_append, List.getLast?_concat, List.map_singleton]

end

/-- However the reading goes on, it finds the words of the run that goes on and the characters behind it. -/
theorem words_foldl_within (finished : List (List Char)) {run : List Char} (hrun : IsRun run) (rest : List Char) :
    (rest.foldl next (within finished run)).words = finished ++ Identifier.words (run ++ rest) := by
  induction rest generalizing finished run with
  | nil => rw [List.foldl_nil, words_within finished hrun, List.append_nil]
  | cons c rest ih =>
    rw [List.foldl_cons]
    cases hc : isSeparator c with
    | true =>
      rw [next_within_of_isSeparator finished hrun hc, ih _ isRun_nil, words_append_cons_of_isSeparator run hc,
        List.append_assoc, List.nil_append]
    | false =>
      cases hprevious : run.getLast?.any (startsWord · c) with
      | true =>
        rw [next_within_of_startsWord finished hrun hc hprevious, ih _ (isRun_singleton hc),
          words_append_cons_of_startsWord hrun hc hprevious, List.append_assoc, List.singleton_append]
      | false =>
        rw [next_within finished hc hprevious, ih _ (hrun.concat hc hprevious), List.append_assoc,
          List.singleton_append]

end Reading

theorem words_eq_foldl (name : List Char) : words name = (name.foldl Reading.next .start).words :=
  (Reading.words_foldl_within [] isRun_nil name).symm

/-! ### What words are made of -/

theorem ne_nil_of_mem_words {name word : List Char} (h : word ∈ words name) : word ≠ [] := by
  obtain ⟨part, -, hpart⟩ := List.mem_flatMap.1 h
  obtain ⟨run, hrun, rfl⟩ := List.mem_map.1 hpart
  rw [ne_eq, List.map_eq_nil_iff]
  exact List.ne_nil_of_mem_splitBy hrun

theorem flatten_words (name : List Char) :
    (words name).flatten = (name.filter (!isSeparator ·)).map Char.toLower := by
  have hpart (part : List Char) :
      ((part.splitBy fun previous c => !startsWord previous c).map (·.map Char.toLower)).flatten =
        part.map Char.toLower := by
    rw [← List.map_flatten, List.flatten_splitBy]
  rw [words, List.flatMap_def, List.flatten_flatten, List.map_map, ← Text.flatten_splitOnP, List.map_flatten]
  exact congrArg List.flatten (List.map_congr_left fun part _ => hpart part)

theorem isSeparator_eq_false_iff {c : Char} : isSeparator c = false ↔ c ∉ ['_', '-', '.'] := by
  simp [isSeparator, and_assoc]

/-- A word as the spellings of a name are made of. -/
structure IsWord (word : List Char) : Prop where
  nonempty : word ≠ []
  free : ∀ c ∈ word, c ∉ ['_', '-', '.']
  lower : ∀ c ∈ word, c.isUpper = false

theorem isWord_of_mem_words {name word : List Char} (h : word ∈ words name) : IsWord word where
  nonempty := ne_nil_of_mem_words h
  free c hc := by
    obtain ⟨d, -, hfree, rfl⟩ := exists_of_mem_word h hc
    intro hsep
    have halpha : d.toLower.isAlpha = false :=
      (by decide : ∀ s ∈ ['_', '-', '.'], s.isAlpha = false) _ hsep
    rw [← eq_of_toLower_eq halpha rfl] at hsep
    exact isSeparator_eq_false_iff.1 hfree hsep
  lower c hc := by
    obtain ⟨d, -, -, rfl⟩ := exists_of_mem_word h hc
    exact Char.isUpper_toLower_eq_false d

/-! ### Words that are joined -/

theorem startsWord_eq_false {c : Char} (hc : c.isUpper = false) (previous : Char) : startsWord previous c = false := by
  rw [startsWord, hc, Bool.false_and]

theorem IsWord.isRun {word : List Char} (h : IsWord word) : IsRun word where
  free c hc := isSeparator_eq_false_iff.2 (h.free c hc)
  chain := (List.pairwise_of_forall_mem_list fun previous _ c hc => by
    rw [startsWord_eq_false (h.lower c hc), Bool.not_false]).isChain

theorem words_of_isWord {word : List Char} (h : IsWord word) : words word = [word] := by
  have hlower : word.map Char.toLower = word := by
    rw [List.map_congr_left fun c hc => Char.toLower_eq_of_not_isUpper (by rw [h.lower c hc]; decide), List.map_id']
  rw [words_of_isRun h.isRun, if_neg h.nonempty, hlower]

theorem words_intercalate {parts : List (List Char)} (h : ∀ word ∈ parts, IsWord word) :
    words (['_'].intercalate parts) = parts := by
  induction parts with
  | nil => rfl
  | cons first rest ih =>
    rw [List.forall_mem_cons] at h
    cases rest with
    | nil => rw [List.intercalate_singleton, words_of_isWord h.1]
    | cons second others =>
      rw [List.intercalate_cons_cons, List.append_assoc, List.singleton_append,
        words_append_cons_of_isSeparator first (by decide), words_of_isWord h.1, ih h.2, List.singleton_append]

/-- The spelling in lower case keeps the words. -/
theorem words_snake (name : List Char) : words (snake name) = words name :=
  words_intercalate fun _ => isWord_of_mem_words

theorem snake_snake (name : List Char) : snake (snake name) = snake name := by
  rw [snake, words_snake, snake]

theorem snake_eq_snake_iff {name other : List Char} : snake name = snake other ↔ words name = words other := by
  refine ⟨fun h => ?_, fun h => by rw [snake, h, snake]⟩
  rw [← words_snake name, h, words_snake]

/-! ### Names -/

/-- What the words of a name are, and what the spelling in lower case keeps of it. -/
structure Splits (name : String) : Prop where
  isWord : ∀ word ∈ words name.toList, IsWord word
  /-- Nothing is lost but separators and case. -/
  flatten : (words name.toList).flatten = (name.toList.filter (· ∉ ['_', '-', '.'])).map Char.toLower
  onePass : words name.toList = (name.toList.foldl Reading.next .start).words
  idempotent : toSnakeCase (toSnakeCase name) = toSnakeCase name
  /-- Names that are spelled alike have the same words. -/
  alike : ∀ other, toSnakeCase name = toSnakeCase other ↔ words name.toList = words other.toList

theorem splits_name (name : String) : Splits name where
  isWord _ := isWord_of_mem_words
  flatten := by
    have hfilter (c : Char) : (!isSeparator c) = decide (c ∉ ['_', '-', '.']) := by
      rw [Bool.eq_iff_iff, Bool.not_eq_true', isSeparator_eq_false_iff, decide_eq_true_eq]
    rw [flatten_words, List.filter_congr fun c _ => hfilter c]
  onePass := words_eq_foldl name.toList
  idempotent := by rw [toSnakeCase, toSnakeCase, String.toList_ofList, snake_snake]
  alike other := by
    rw [toSnakeCase, toSnakeCase, String.ofList_inj, snake_eq_snake_iff]

example : words "__mainLogo2X.HTMLPage-".toList =
    ["main", "logo2", "x", "htmlpage"].map String.toList := by decide +kernel

end BundleForge.Identifier
