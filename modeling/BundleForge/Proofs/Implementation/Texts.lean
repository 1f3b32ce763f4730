import BundleForge.Generator
import BundleForge.Proofs.Implementation.Items
import BundleForge.Proofs.Implementation.Parts
import BundleForge.Proofs.Literal
/-!
# Texts in a module

The initializer of a text accessor holds the whole text. The comment with the origin of the text is
taken off before the expression is written, and the lines of a long expression are indented like the
rest of the module, which does not change what the expression is read as: indentation stands between
tokens, and no literal spans lines.
-/

namespace BundleForge.Implementation

open Layout (written indentation)

/-! ### Taking off the comment -/

theorem splitComments_of_not_prefix {text : List Char} (h : ¬ "//".toList <+: text) :
    splitComments text = ([], text) := by
  rw [splitComments, if_neg fun hprefix => h (List.isPrefixOf_iff_prefix.1 hprefix)]

theorem splitComments_comment {comment : List Char} (hslashes : "//".toList <+: comment)
    (hline : '\n' ∉ comment) (rest : List Char) :
    splitComments (comment ++ '\n' :: rest) =
      (comment :: (splitComments rest).1, (splitComments rest).2) := by
  have hprefix : "//".toList.isPrefixOf (comment ++ '\n' :: rest) = true :=
    List.isPrefixOf_iff_prefix.2 (hslashes.trans (List.prefix_append _ _))
  rw [splitComments, if_pos hprefix]
  split
  · rename_i comment' rest' hcut
    rw [Text.cutFirst?_append hline] at hcut
    obtain ⟨rfl, rfl⟩ := Prod.mk.inj (Option.some.inj hcut)
    rfl
  · rename_i hnone
    rw [Text.cutFirst?_append hline] at hnone
    simp at hnone

theorem splitComments_originComment (context : Context) (origin : String) {rest : List Char}
    (hrest : ¬ "//".toList <+: rest) :
    (splitComments ((context.originComment origin).toList ++ rest)).2 = rest := by
  rw [Context.originComment]
  split
  · rw [String.toList_empty, List.nil_append, splitComments_of_not_prefix hrest]
  · have hcomment : ("// " ++ origin.map (fun c => if c = '\n' ∨ c = '\r' then ' ' else c) ++
        "\n").toList ++ rest = ("// ".toList ++ origin.toList.map (fun c =>
          if c = '\n' ∨ c = '\r' then ' ' else c)) ++ '\n' :: rest := by
      simp
    have hline : '\n' ∉ "// ".toList ++ origin.toList.map (fun c =>
        if c = '\n' ∨ c = '\r' then ' ' else c) := by
      rw [List.mem_append, List.mem_map]
      rintro (hslash | ⟨c, -, hc⟩)
      · revert hslash
        decide
      · split at hc
        · simp at hc
        · rename_i hother
          exact hother (Or.inl hc)
    have hslashes : "//".toList <+: "// ".toList ++ origin.toList.map (fun c =>
        if c = '\n' ∨ c = '\r' then ' ' else c) :=
      List.IsPrefix.trans (by decide) (List.prefix_append _ _)
    rw [hcomment, splitComments_comment hslashes hline, splitComments_of_not_prefix hrest]

/-! ### The expression of a text -/

/-- Where the line with an expression is written, the lines of a long expression are indented like it. -/
theorem written_expression {line text : String} {opening closing : List Char}
    (hline : line.toList = opening ++ ((Literal.stringExpression text).toList ++ closing))
    (hopening : opening ≠ [] ∧ '\n' ∉ opening) (hclosing : '\n' ∉ closing) (depth : Nat) :
    written depth (.line line) = indentation depth ++ opening ++
      Literal.shown (indentation depth) text ++ (closing ++ ['\n']) := by
  unfold Literal.shown
  split
  · rename_i hshort
    have hbreak : '\n' ∉ line.toList := by
      rw [hline, Literal.toList_stringExpression_of_le hshort]
      simp only [List.mem_append, not_or]
      exact ⟨hopening.2, ⟨by decide, Literal.not_mem_literal (.inl rfl) text, by decide⟩, hclosing⟩
    have hne : line.toList ≠ [] := by
      rw [hline]
      exact List.append_ne_nil_of_left_ne_nil hopening.1 _
    rw [Layout.written_line hbreak, Layout.renderLine_of_ne_nil hne, hline]
    simp only [List.append_assoc]
  · rename_i hshort
    rw [Literal.toList_stringExpression_of_lt (Nat.not_le.1 hshort)] at hline
    -- All lines of the block get the indentation of the first.
    let lines := (Literal.builderLines text).map String.toList ++ ["\x7d".toList ++ closing]
    have hlines : line.toList = (opening ++ "\x7b".toList) ++ lines.flatMap ('\n' :: ·) := by
      rw [hline]
      simp only [lines, List.flatMap_append, List.flatMap_singleton, List.append_assoc,
        List.cons_append]
    have hbreak : ∀ part ∈ (opening ++ "\x7b".toList) :: lines, part ≠ [] ∧ '\n' ∉ part := by
      rw [List.forall_mem_cons, List.forall_mem_append, List.forall_mem_singleton]
      refine ⟨⟨List.append_ne_nil_of_left_ne_nil hopening.1 _, ?_⟩,
        fun part hpart => Literal.newline_not_mem_builderLines hpart,
        List.append_ne_nil_of_left_ne_nil (by decide) _, ?_⟩
      · rw [List.mem_append, not_or]
        exact ⟨hopening.2, by decide⟩
      · rw [List.mem_append, not_or]
        exact ⟨by decide, hclosing⟩
    rw [Layout.written_lines hlines hbreak, Literal.builderBlock_eq]
    simp only [lines, List.flatMap_append, List.flatMap_singleton, List.append_assoc,
      List.cons_append]

/-- However long a text is, its expression is read back from the line in which it stands, as that line
is written at any depth. -/
theorem exists_read_written {line text : String} {opening closing : List Char}
    (hline : line.toList = opening ++ ((Literal.stringExpression text).toList ++ closing))
    (hopening : opening ≠ [] ∧ '\n' ∉ opening) (hclosing : '\n' ∉ closing) (depth : Nat) :
    ∃ code expression,
      written depth (.line line) = indentation depth ++ opening ++ code ++ (closing ++ ['\n']) ∧
      (∀ after, StringExpression.read? (code ++ after) = some (expression, after)) ∧
      expression.Spells text := by
  have hblank : ∀ c ∈ indentation depth, Literal.isBlank c = true := by
    intro c hc
    rw [List.eq_of_mem_replicate hc]
    rfl
  obtain ⟨expression, hspells, hread⟩ := StringExpression.exists_read?_shown hblank text
  exact ⟨_, expression, written_expression hline hopening hclosing depth, hread, hspells⟩

def textCall (name text : String) : String :=
  "::bundle_runtime::TextResourcePrototype::new(" ++ Literal.literal name ++ ", " ++
    Literal.stringExpression text ++ ")"

theorem append_textCall (comment name text : String) :
    comment ++ textCall name text =
      comment ++ "::bundle_runtime::TextResourcePrototype::new(" ++ Literal.literal name ++ ", " ++
        Literal.stringExpression text ++ ")" := by
  have hcall : textCall name text = "::bundle_runtime::TextResourcePrototype::new(" ++
      Literal.literal name ++ ", " ++ Literal.stringExpression text ++ ")" := rfl
  rw [hcall]
  simp only [String.append_assoc]

/-- What stands before the text in the line that boxes the value of a text accessor. -/
def textOpening (name : String) : String :=
  "::std::boxed::Box::new(::bundle_runtime::TextResourcePrototype::new(" ++ Literal.literal name ++
    ", "

theorem toList_boxed_textCall (name text : String) :
    s!"::std::boxed::Box::new({textCall name text})".toList =
      (textOpening name).toList ++ ((Literal.stringExpression text).toList ++ "))".toList) := by
  have hcall : s!"::std::boxed::Box::new({textCall name text})" =
      "::std::boxed::Box::new(" ++ ("::bundle_runtime::TextResourcePrototype::new(" ++
        Literal.literal name ++ ", " ++ Literal.stringExpression text ++ ")") ++ ")" := rfl
  have hopening : textOpening name = "::std::boxed::Box::new(" ++
      "::bundle_runtime::TextResourcePrototype::new(" ++ Literal.literal name ++ ", " :=
    congrArg (· ++ Literal.literal name ++ ", ") (by decide)
  have hclosing : ("))" : String) = ")" ++ ")" := by decide
  rw [← String.toList_append, ← String.toList_append]
  refine congrArg String.toList ?_
  rw [hcall, hopening, hclosing]
  simp only [String.append_assoc]

theorem newline_not_mem_textOpening (name : String) : '\n' ∉ (textOpening name).toList := by
  show '\n' ∉ ("::std::boxed::Box::new(::bundle_runtime::TextResourcePrototype::new(" ++
    Literal.literal name ++ ", ").toList
  rw [String.toList_append, String.toList_append, List.mem_append, List.mem_append, not_or, not_or]
  exact ⟨⟨by decide, Literal.not_mem_literal (.inl rfl) name⟩, by decide⟩

theorem textOpening_ne_nil (name : String) : (textOpening name).toList ≠ [] := by
  show ("::std::boxed::Box::new(::bundle_runtime::TextResourcePrototype::new(" ++
    Literal.literal name ++ ", ").toList ≠ []
  rw [String.toList_append, String.toList_append]
  simp

theorem not_prefix_textCall (name text : String) : ¬ "//".toList <+: (textCall name text).toList := by
  show ¬ "//".toList <+: ("::bundle_runtime::TextResourcePrototype::new(" ++ Literal.literal name ++
    ", " ++ Literal.stringExpression text ++ ")").toList
  rw [String.toList_append, String.toList_append, String.toList_append, String.toList_append]
  simp [List.cons_prefix_cons]

def initializerHead (initializer : Initializer) : Layout :=
  [.line (s!"fn {initializer.accessor}_initializer(&self) -> &'static dyn {initializer.result}" ++
      " \x7b"), .indent,
    .line (s!"&**{initializer.slot}.get_or_init(|| -> {initializer.slotType}" ++ " \x7b"),
    .indent] ++ initializer.comments.map .line

theorem renderFrom_initializerLayout (initializer : Initializer) (depth : Nat) :
    ∃ after, Layout.renderFrom depth (initializerLayout initializer) =
      Layout.renderFrom depth (initializerHead initializer) ++
        written (depth + 2) (.line s!"::std::boxed::Box::new({initializer.expression})") ++ after := by
  let box : Instruction := .line s!"::std::boxed::Box::new({initializer.expression})"
  let close : Layout := [.outdent, .line ("\x7d" ++ ")"), .outdent, .line ("\x7d" ++ "")]
  have hlayout : initializerLayout initializer = initializerHead initializer ++ box :: close := by
    simp [initializerLayout, initializerHead, Layout.block, box, close]
  have hdepth : (initializerHead initializer).foldl Layout.depthAfter depth = depth + 2 := by
    rw [initializerHead, List.foldl_append]
    exact Layout.balanced_map_line initializer.comments id (depth + 2)
  refine ⟨Layout.renderFrom (depth + 2) close, ?_⟩
  rw [hlayout, Layout.renderFrom_append, hdepth, List.append_assoc]
  rfl

/-- The initializer whose code is a comment with an origin and the expression of a text shows that
text. -/
theorem exists_read_initializer (context : Context) (origin : String) {code : AccessorCode}
    {text : String} (hcode : code.initializer = context.originComment origin ++
      textCall code.accessor.name text) (depth : Nat) :
    ∃ shown expression after,
      Layout.renderFrom depth (initializerLayout (initializerOf code)) =
        Layout.renderFrom depth (initializerHead (initializerOf code)) ++
          (indentation (depth + 2) ++ (textOpening code.accessor.name).toList) ++ shown ++ after ∧
      (∀ rest, StringExpression.read? (shown ++ rest) = some (expression, rest)) ∧
      expression.Spells text := by
  have hexpression : (initializerOf code).expression = textCall code.accessor.name text := by
    show String.ofList (splitComments code.initializer.toList).2 = _
    rw [hcode, String.toList_append,
      splitComments_originComment context origin (not_prefix_textCall _ _), String.ofList_toList]
  obtain ⟨after, hlayout⟩ := renderFrom_initializerLayout (initializerOf code) depth
  obtain ⟨shown, expression, hwritten, hread, hspells⟩ :=
    exists_read_written (toList_boxed_textCall code.accessor.name text)
      ⟨textOpening_ne_nil _, newline_not_mem_textOpening _⟩ (by decide) (depth + 2)
  refine ⟨shown, expression, "))".toList ++ ['\n'] ++ after, ?_, hread, hspells⟩
  rw [hlayout, hexpression, hwritten]
  simp only [List.append_assoc]

/-- The one initializer for an accessor boxes a value that is made of the name of the accessor and an
expression spelling a text. -/
def ShowsText (implementation : Implementation) (name text : String) : Prop :=
  ∃ initializer before shown after expression,
    implementation.initializers.filter (·.accessor = name) = [initializer] ∧
    implementation.source.toList = before ++
      (Layout.renderFrom 2 (initializerHead initializer) ++
        (indentation 4 ++ (textOpening name).toList) ++ shown) ++ after ∧
    (∀ rest, StringExpression.read? (shown ++ rest) = some (expression, rest)) ∧
    expression.value = text.toList ∧
    expression.Spells text

theorem showsText_of_code {assembly : Assembly} {code : AccessorCode} {context : Context}
    {origin text : String}
    (honly : assembly.accessors.filter (·.accessor.name = code.accessor.name) = [code])
    (hcode : code.initializer = context.originComment origin ++ textCall code.accessor.name text) :
    (ofAssembly assembly).ShowsText code.accessor.name text := by
  have hinitializer : (ofAssembly assembly).initializers.filter
      (·.accessor = code.accessor.name) = [initializerOf code] := by
    show (assembly.accessors.map initializerOf).filter _ = _
    rw [List.filter_map]
    exact congrArg (List.map initializerOf) honly
  have hmem : initializerOf code ∈ (ofAssembly assembly).initializers :=
    List.mem_of_mem_filter (hinitializer ▸ List.mem_singleton_self _)
  obtain ⟨before, last, hsource⟩ := (written_source (ofAssembly assembly)).initializer _ hmem
  obtain ⟨shown, expression, after, hshown, hread, hspells⟩ :=
    exists_read_initializer context origin hcode 2
  refine ⟨initializerOf code, before, shown, after ++ last, expression, hinitializer, ?_, hread,
    hspells.value_eq, hspells⟩
  rw [← hsource, hshown]
  simp only [List.append_assoc]

end BundleForge.Implementation
