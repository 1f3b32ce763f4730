import BundleForge.Proofs.Layout
import BundleForge.Proofs.Text
import Mathlib
/-!
# Programs for a writer

A writer is given its instructions by a program in which blocks nest: the body of a block is a program of its own,
written one level deeper. The writer itself knows no blocks, only a depth that goes up and down. If each body ends the
indents that it begins, and no others, then the depth behind a block is the depth in front of it, each line stands
behind four blanks for each block and indent around it, and nothing but these blanks is added to what is written.
-/

namespace BundleForge.Layout

inductive Program where
  | done
  | line (text : String) (rest : Program)
  | blank (rest : Program)
  | indent (rest : Program)
  | outdent (rest : Program)
  | block (header suffix : String) (body rest : Program)

namespace Program

def layout : Program → Layout
  | done => []
  | line text rest => .line text :: rest.layout
  | blank rest => .blank :: rest.layout
  | indent rest => .indent :: rest.layout
  | outdent rest => .outdent :: rest.layout
  | block header suffix body rest => Layout.block header suffix body.layout ++ rest.layout

/-- What is left of a body, in which some indents are open, ends these and all that it begins, but no others. So do
the bodies in it. -/
def Closes (opened : ℕ) : Program → Prop
  | done => opened = 0
  | line _ rest | blank rest => rest.Closes opened
  | indent rest => rest.Closes (opened + 1)
  | outdent rest => 0 < opened ∧ rest.Closes (opened - 1)
  | block _ _ body rest => body.Closes 0 ∧ rest.Closes opened

/-- A program in which the body of each block ends its own indents. -/
def Proper : Program → Prop
  | done => True
  | line _ rest | blank rest | indent rest | outdent rest => rest.Proper
  | block _ _ body rest => body.Closes 0 ∧ rest.Proper

def blocks : Program → List Layout
  | done => []
  | line _ rest | blank rest | indent rest | outdent rest => rest.blocks
  | block header suffix body rest => Layout.block header suffix body.layout :: (body.blocks ++ rest.blocks)

/-- A text line by line, each line with a number of levels. -/
def linesAt (level : ℕ) (text : String) : List (ℕ × List Char) :=
  (text.toList.splitOn '\n').map (level, ·)

/-- The lines of a program with the number of blocks and indents around each. A block is around its body, but not
around what follows it; an indent is around what follows up to the outdent that ends it. -/
def lines (level : ℕ) : Program → List (ℕ × List Char)
  | done => []
  | line text rest => linesAt level text ++ rest.lines level
  | blank rest => (level, []) :: rest.lines level
  | indent rest => rest.lines (level + 1)
  | outdent rest => rest.lines (level - 1)
  | block header suffix body rest =>
    linesAt level (header ++ " \x7b") ++ body.lines (level + 1) ++ linesAt level ("\x7d" ++ suffix) ++
      rest.lines level

def text : Program → List Char
  | done => []
  | line text rest => text.toList ++ '\n' :: rest.text
  | blank rest => '\n' :: rest.text
  | indent rest | outdent rest => rest.text
  | block header suffix body rest =>
    (header ++ " \x7b").toList ++ '\n' :: body.text ++ ("\x7d" ++ suffix).toList ++ '\n' :: rest.text

/-! ### Depth -/

theorem foldl_depthAfter_of_closes {program : Program} {opened : ℕ} (h : program.Closes opened) (depth : ℕ) :
    program.layout.foldl depthAfter (depth + opened) = depth := by
  induction program generalizing opened depth with
  | done => exact congrArg (depth + ·) h
  | line text rest ih => exact ih h depth
  | blank rest ih => exact ih h depth
  | indent rest ih => exact ih h depth
  | outdent rest ih =>
    have hdepth : depthAfter (depth + opened) .outdent = depth + (opened - 1) := Nat.add_sub_assoc h.1 depth
    rw [layout, List.foldl_cons, hdepth, ih h.2]
  | block header suffix body rest ihBody ihRest =>
    have hblock : Balanced (Layout.block header suffix body.layout) := Balanced.block _ _ (ihBody h.1)
    rw [layout, List.foldl_append, hblock, ihRest h.2]

theorem balanced_layout {body : Program} (h : body.Closes 0) : Balanced body.layout :=
  foldl_depthAfter_of_closes h

theorem balanced_block {body : Program} (h : body.Closes 0) (header suffix : String) :
    Balanced (Layout.block header suffix body.layout) :=
  (balanced_layout h).block header suffix

theorem proper_of_closes {program : Program} {opened : ℕ} (h : program.Closes opened) : program.Proper := by
  induction program generalizing opened with
  | done => trivial
  | line text rest ih => exact ih h
  | blank rest ih => exact ih h
  | indent rest ih => exact ih h
  | outdent rest ih => exact ih h.2
  | block header suffix body rest ihBody ihRest => exact ⟨h.1, ihRest h.2⟩

theorem balanced_of_mem_blocks {program : Program} (h : program.Proper) :
    ∀ block ∈ program.blocks, Balanced block := by
  induction program with
  | done => exact fun _ hmem => absurd hmem List.not_mem_nil
  | line text rest ih => exact ih h
  | blank rest ih => exact ih h
  | indent rest ih => exact ih h
  | outdent rest ih => exact ih h
  | block header suffix body rest ihBody ihRest =>
    rw [blocks, List.forall_mem_cons, List.forall_mem_append]
    exact ⟨balanced_block h.1 header suffix, ihBody (proper_of_closes h.1), ihRest h.2⟩

/-! ### Lines -/

theorem written_line_eq (level : ℕ) (text : String) :
    written level (.line text) = (linesAt level text).flatMap fun line => renderLine line.1 line.2 := by
  rw [written, linesAt, List.flatMap_map]

/-- A block is written as its header, its body one level deeper, and its end. -/
theorem renderFrom_block (level : ℕ) (header suffix : String) {body : Layout} (h : Balanced body) :
    renderFrom level (Layout.block header suffix body) =
      written level (.line (header ++ " \x7b")) ++ renderFrom (level + 1) body ++
        written level (.line ("\x7d" ++ suffix)) := by
  have hopened : [Instruction.line (header ++ " \x7b"), .indent].foldl depthAfter level = level + 1 := rfl
  have hend : renderFrom (level + 1) [.outdent, .line ("\x7d" ++ suffix)] = written level (.line ("\x7d" ++ suffix)) :=
    List.append_nil _
  rw [Layout.block, renderFrom_append, renderFrom_append, List.foldl_append, hopened, h, hend]
  exact congrArg₂ _ (congrArg₂ _ (List.append_nil _) rfl) rfl

theorem renderFrom_layout {program : Program} (h : program.Proper) (level : ℕ) :
    renderFrom level program.layout = (program.lines level).flatMap fun line => renderLine line.1 line.2 := by
  induction program generalizing level with
  | done => rfl
  | line text rest ih =>
    rw [layout, renderFrom, lines, List.flatMap_append, written_line_eq, depthAfter, ih h]
  | blank rest ih =>
    rw [layout, renderFrom, lines, List.flatMap_cons, depthAfter, ih h]
    rfl
  | indent rest ih => exact ih h (level + 1)
  | outdent rest ih => exact ih h (level - 1)
  | block header suffix body rest ihBody ihRest =>
    rw [layout, renderFrom_append, renderFrom_block level header suffix (balanced_layout h.1),
      balanced_block h.1, ihBody (proper_of_closes h.1), ihRest h.2, written_line_eq, written_line_eq, lines,
      List.flatMap_append, List.flatMap_append, List.flatMap_append]

theorem newline_not_mem_linesAt (level : ℕ) (text : String) : ∀ line ∈ linesAt level text, '\n' ∉ line.2 :=
  List.forall_mem_map.2 fun _ => Text.not_mem_of_mem_splitOn

theorem newline_not_mem_lines (program : Program) (level : ℕ) : ∀ line ∈ program.lines level, '\n' ∉ line.2 := by
  induction program generalizing level with
  | done => exact fun _ h => absurd h List.not_mem_nil
  | line text rest ih => exact List.forall_mem_append.2 ⟨newline_not_mem_linesAt level text, ih level⟩
  | blank rest ih => exact List.forall_mem_cons.2 ⟨List.not_mem_nil, ih level⟩
  | indent rest ih => exact ih (level + 1)
  | outdent rest ih => exact ih (level - 1)
  | block header suffix body rest ihBody ihRest =>
    rw [lines, List.forall_mem_append, List.forall_mem_append, List.forall_mem_append]
    exact ⟨⟨⟨newline_not_mem_linesAt level _, ihBody (level + 1)⟩, newline_not_mem_linesAt level _⟩, ihRest level⟩

/-- A line as it is written: behind four blanks for each level, or without any if it is empty. -/
def indented (level : ℕ) (line : List Char) : List Char :=
  if line = [] then [] else List.replicate (4 * level) ' ' ++ line

theorem renderLine_eq (level : ℕ) (line : List Char) : renderLine level line = indented level line ++ ['\n'] := by
  by_cases hnil : line = []
  · rw [indented, if_pos hnil, hnil]
    rfl
  · rw [indented, if_neg hnil, renderLine_of_ne_nil hnil, indentation]

theorem newline_not_mem_indented {line : List Char} (h : '\n' ∉ line) (level : ℕ) : '\n' ∉ indented level line := by
  rw [indented]
  split
  · exact List.not_mem_nil
  · rw [List.mem_append, not_or]
    exact ⟨fun hblank => absurd (List.eq_of_mem_replicate hblank) (by decide), h⟩

theorem drop_indented (level : ℕ) (line : List Char) : (indented level line).drop (4 * level) = line := by
  rw [indented]
  split
  · rename_i hnil
    rw [hnil, List.drop_nil]
  · exact List.drop_left' List.length_replicate

/-- Cut at its newlines, the output shows the lines of the program, and nothing behind them. -/
theorem splitOn_renderFrom {program : Program} (h : program.Proper) (level : ℕ) :
    (renderFrom level program.layout).splitOn '\n' =
      (program.lines level).map (fun line => indented line.1 line.2) ++ [[]] := by
  have hfree : ∀ written ∈ (program.lines level).map (fun line => indented line.1 line.2), '\n' ∉ written :=
    List.forall_mem_map.2 fun line hline =>
      newline_not_mem_indented (newline_not_mem_lines program level line hline) line.1
  rw [renderFrom_layout h, ← Text.splitOn_flatMap_concat hfree, List.flatMap_map]
  simp only [renderLine_eq]

/-! ### Texts -/

theorem flatMap_linesAt (level : ℕ) (text : String) :
    (linesAt level text).flatMap (·.2 ++ ['\n']) = text.toList ++ ['\n'] := by
  rw [linesAt, List.flatMap_map, Text.flatMap_concat_splitOn]

theorem flatMap_lines (program : Program) (level : ℕ) :
    (program.lines level).flatMap (·.2 ++ ['\n']) = program.text := by
  induction program generalizing level with
  | done => rfl
  | line text rest ih =>
    rw [lines, List.flatMap_append, flatMap_linesAt, ih, Program.text, List.append_assoc, List.singleton_append]
  | blank rest ih =>
    rw [lines, List.flatMap_cons, ih]
    rfl
  | indent rest ih => exact ih (level + 1)
  | outdent rest ih => exact ih (level - 1)
  | block header suffix body rest ihBody ihRest =>
    rw [lines, List.flatMap_append, List.flatMap_append, List.flatMap_append, flatMap_linesAt, flatMap_linesAt,
      ihBody, ihRest, Program.text]
    simp only [List.append_assoc, List.cons_append, List.nil_append]

/-- An output from whose lines the blanks of some levels are deleted. -/
def unindented (levels : List ℕ) (output : List Char) : List Char :=
  (List.zipWith (fun level line => line.drop (4 * level)) levels (output.splitOn '\n')).flatMap (· ++ ['\n'])

theorem zipWith_drop_indented (lines : List (ℕ × List Char)) (others : List (List Char)) :
    List.zipWith (fun level line => line.drop (4 * level)) (lines.map Prod.fst)
        (lines.map (fun line => indented line.1 line.2) ++ others) = lines.map Prod.snd := by
  induction lines with
  | nil => rfl
  | cons line rest ih =>
    rw [List.map_cons, List.map_cons, List.map_cons, List.cons_append, List.zipWith_cons_cons, drop_indented, ih]

theorem unindented_renderFrom {program : Program} (h : program.Proper) (level : ℕ) :
    unindented ((program.lines level).map Prod.fst) (renderFrom level program.layout) = program.text := by
  rw [unindented, splitOn_renderFrom h, zipWith_drop_indented, List.flatMap_map, flatMap_lines]

theorem written_line_eq_renderFrom (level : ℕ) (text : String) :
    written level (.line text) =
      renderFrom level ((text.toList.splitOn '\n').map fun line => .line (String.ofList line)) := by
  have hlines : ∀ lines : List (List Char), (∀ line ∈ lines, '\n' ∉ line) →
      renderFrom level (lines.map fun line => .line (String.ofList line)) = lines.flatMap (renderLine level) := by
    intro lines h
    induction lines with
    | nil => rfl
    | cons line rest ih =>
      rw [List.forall_mem_cons] at h
      rw [List.map_cons, renderFrom, depthAfter, ih h.2, List.flatMap_cons,
        written_line (by rw [String.toList_ofList]; exact h.1), String.toList_ofList]
  rw [hlines _ fun _ => Text.not_mem_of_mem_splitOn, written]

/-! ### What is written for a program -/

/-- How a writer that starts at some depth lays out a program. -/
structure LaysOut (program : Program) (start : ℕ) : Prop where
  /-- Each block ends at the depth at which it begins. -/
  restores : ∀ block ∈ program.blocks, ∀ depth, block.foldl depthAfter depth = depth
  /-- Each line stands behind four blanks for each block and indent around it, or is empty. -/
  lines : (renderFrom start program.layout).splitOn '\n' =
    (program.lines start).map (fun line => indented line.1 line.2) ++ [[]]
  /-- It is all the same whether a text is written at once or line by line. -/
  lineByLine : ∀ (before after : Layout) (text : String),
    renderFrom start (before ++ .line text :: after) =
      renderFrom start (before ++ (text.toList.splitOn '\n').map (fun line => .line (String.ofList line)) ++ after)
  /-- Without the indentation, what was written is left. -/
  unindented : Program.unindented ((program.lines start).map Prod.fst) (renderFrom start program.layout) =
    program.text

theorem laysOut_of_proper {program : Program} (h : program.Proper) (start : ℕ) : program.LaysOut start where
  restores := balanced_of_mem_blocks h
  lines := splitOn_renderFrom h start
  lineByLine before after text := by
    have hlines : Balanced ((text.toList.splitOn '\n').map fun line => .line (String.ofList line)) :=
      balanced_map_line _ _
    rw [List.append_assoc, renderFrom_append, renderFrom_append, renderFrom_append, hlines, renderFrom, depthAfter,
      written_line_eq_renderFrom]
  unindented := unindented_renderFrom h start

/-- A module with an indented text, which has an indentation of its own, and with a block in a block. -/
def nested : Program :=
  .block "mod demo" ""
    (.line "// values" (.indent (.line "let x = \x7b\n    1\n\x7d;" (.outdent (.blank
      (.block "fn value() -> u32" ";" (.line "x" .done) .done)))))) .done

theorem laysOut_nested :
    nested.Proper ∧ nested.LaysOut 0 ∧ nested.blocks.length = 2 ∧
      (nested.lines 0).map Prod.fst = [0, 1, 2, 2, 2, 1, 1, 2, 1, 0] ∧
      (renderFrom 0 nested.layout).splitOn '\n' =
        ["mod demo \x7b", "    // values", "        let x = \x7b", "            1", "        \x7d;", "",
          "    fn value() -> u32 \x7b", "        x", "    \x7d;", "\x7d", ""].map String.toList := by
  have hproper : nested.Proper := ⟨⟨Nat.one_pos, rfl, rfl⟩, trivial⟩
  exact ⟨hproper, laysOut_of_proper hproper 0, rfl, by decide, by decide +kernel⟩

end Program

end BundleForge.Layout
