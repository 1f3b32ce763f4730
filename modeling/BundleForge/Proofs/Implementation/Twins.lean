import BundleForge.Proofs.Implementation.Texts
import BundleForge.Proofs.Skeleton
/-!
# Modules that differ in their texts

Two layouts are twins if they have the same instructions, apart from comments and from the texts in their
expressions. Their sources have the same skeleton: line by line, a comment leaves nothing behind, a line of code
is kept, and an expression is taken out as a whole, however many lines it is written on.
-/

namespace BundleForge.Layout

open Lexical

/-- A comment for a line of its own. -/
def IsComment (text : String) : Prop :=
  ∃ comment, text.toList = "// ".toList ++ comment ∧ ∀ c ∈ comment, c ≠ '\n' ∧ c ≠ '\r'

/-- The same instructions up to comments and texts. -/
inductive Twin : Layout → Layout → Prop
  | nil : Twin [] []
  | commentLeft {text : String} {first second : Layout} (is : IsComment text)
      (rest : Twin first second) : Twin (.line text :: first) second
  | commentRight {text : String} {first second : Layout} (is : IsComment text)
      (rest : Twin first second) : Twin first (.line text :: second)
  | settled {line : String} {lexemes : List Lexeme} {first second : Layout}
      (is : Settled line lexemes) (rest : Twin first second) :
      Twin (.line line :: first) (.line line :: second)
  | texts {opening closing : String} {lexemes : List Lexeme} {first second : Layout}
      (opens : Prelude opening lexemes) (closes : Piece closing) (text other : String)
      (rest : Twin first second) :
      Twin (.line (opening ++ Literal.stringExpression text ++ closing) :: first)
        (.line (opening ++ Literal.stringExpression other ++ closing) :: second)
  | move {instruction : Instruction} {first second : Layout}
      (is : instruction ∈ [Instruction.blank, .indent, .outdent]) (rest : Twin first second) :
      Twin (instruction :: first) (instruction :: second)

/-- Reading a layout, as it is written from a depth on, leads to this skeleton. -/
def Shows (depth : Nat) (layout : Layout) (shown : List (Option Lexeme)) : Prop :=
  ∃ lexemes, Reads (.start 0) (renderFrom depth layout) lexemes (.start 0) ∧
    skeleton lexemes = shown ∧ Calm lexemes

variable {depth : Nat} {layout : Layout} {shown : List (Option Lexeme)}

theorem reads_indentation (depth : Nat) :
    Reads (.start 0) (indentation depth) [] (.start (4 * depth)) := by
  have hblanks := reads_blanks 0 (4 * depth)
  rwa [Nat.zero_add] at hblanks

theorem Shows.comment {text : String} (his : IsComment text) (h : Shows depth layout shown) :
    Shows depth (.line text :: layout) shown := by
  obtain ⟨lexemes, hreads, hskeleton, hcalm⟩ := h
  obtain ⟨comment, htext, hcomment⟩ := his
  have hflat : '\n' ∉ text.toList := by
    rw [htext, List.mem_append, not_or]
    exact ⟨by decide, fun hmem => (hcomment _ hmem).1 rfl⟩
  have hwritten : written depth (.line text) = indentation depth ++ ("// ".toList ++ comment ++ ['\n']) := by
    rw [written_line hflat, htext, renderLine_of_ne_nil (by simp), List.append_assoc]
  refine ⟨lexemes, ?_, hskeleton, hcalm⟩
  rw [renderFrom, hwritten]
  exact ((reads_indentation depth).append (reads_commentLine hcomment _)).append hreads

theorem Shows.settled {line : String} {lexemes : List Lexeme} (his : Settled line lexemes)
    (h : Shows depth layout shown) :
    Shows depth (.line line :: layout)
      ((blanksOf (4 * depth) ++ lexemes ++ [newline]).map some ++ shown) := by
  obtain ⟨others, hreads, rfl, hcalm⟩ := h
  obtain ⟨c, rest, hline, -⟩ := his.begins.head
  have hwritten : written depth (.line line) = indentation depth ++ (line.toList ++ ['\n']) := by
    rw [written_line his.flat, renderLine_of_ne_nil (by rw [hline]; simp), List.append_assoc]
  refine ⟨blanksOf (4 * depth) ++ lexemes ++ [newline] ++ others, ?_, his.keeps _ others hcalm, ?_⟩
  · rw [renderFrom, hwritten]
    exact ((reads_indentation depth).append (his.reads_line _)).append hreads
  · rw [List.append_assoc]
    exact his.calm _ _

def heldLine (depth : Nat) (lexemes : List Lexeme) (closing : String) : List (Option Lexeme) :=
  (blanksOf (4 * depth) ++ lexemes).map some ++
    none :: (codes (closing.toList ++ ['\n'])).map some

theorem Shows.texts {opening closing : String} {lexemes : List Lexeme} (hopens : Prelude opening lexemes)
    (hcloses : Piece closing) (text : String) (h : Shows depth layout shown) :
    Shows depth (.line (opening ++ Literal.stringExpression text ++ closing) :: layout)
      (heldLine depth lexemes closing ++ shown) := by
  obtain ⟨others, hreads, rfl, hcalm⟩ := h
  obtain ⟨c, rest, hopening, -⟩ := hopens.begins.head
  have hline : (opening ++ Literal.stringExpression text ++ closing).toList =
      opening.toList ++ ((Literal.stringExpression text).toList ++ closing.toList) := by
    rw [String.toList_append, String.toList_append, List.append_assoc]
  have hwritten := Implementation.written_expression hline ⟨by rw [hopening]; simp, hopens.flat⟩
    (fun hmem => (hcloses.flat _ hmem).1 rfl) depth
  obtain ⟨expression, hexpression⟩ := exists_spelled (4 * depth) text
  obtain ⟨last, hlast, hclosing⟩ := hcloses.codes .code List.mem_cons_self
  have hend := hclosing.append (reads_newline hlast)
  have hcodes : codes (closing.toList ++ ['\n']) = codes closing.toList ++ [newline] :=
    codes_append closing.toList ['\n']
  have hkept : Keeps (codes (closing.toList ++ ['\n'])) others := by
    apply keeps_codes_of_ends (by decide) ?_ (by decide)
    exact fun hmem => (hcloses.flat _ hmem).2 rfl
  refine ⟨blanksOf (4 * depth) ++ lexemes ++ (expression ++ (codes (closing.toList ++ ['\n']) ++ others)),
    ?_, ?_, hopens.calm _ _⟩
  · rw [renderFrom, hwritten]
    have hall := (((reads_indentation depth).append (reads_indented hopens.begins.head hopens.reads _)).append
      (hexpression.reads.append hend)).append hreads
    rw [hcodes]
    simpa only [List.append_assoc, List.nil_append, indentation, depthAfter, newline] using hall
  · rw [hopens.keeps, skeleton_of_some (hexpression.after _), hkept, heldLine]
    simp only [List.append_assoc, List.cons_append]

theorem Shows.move {instruction : Instruction} (his : instruction ∈ [Instruction.blank, .indent, .outdent])
    (h : Shows (depthAfter depth instruction) layout shown) :
    Shows depth (instruction :: layout) ((codes (written depth instruction)).map some ++ shown) := by
  obtain ⟨others, hreads, rfl, hcalm⟩ := h
  simp only [List.mem_cons, List.not_mem_nil, or_false] at his
  obtain rfl | rfl | rfl := his
  · have hbreak : Reads (.start 0) ['\n'] [newline] (.start 0) := rfl
    exact ⟨newline :: others, hbreak.append hreads, keeps_newline others, (calm_cons_gap rfl others).2 hcalm⟩
  · exact ⟨others, hreads, rfl, hcalm⟩
  · exact ⟨others, hreads, rfl, hcalm⟩

theorem Twin.exists_shows {first second : Layout} (h : Twin first second) (depth : Nat) :
    ∃ shown, Shows depth first shown ∧ Shows depth second shown := by
  induction h generalizing depth with
  | nil => exact ⟨[], ⟨[], .nil, skeleton_nil, calm_nil⟩, ⟨[], .nil, skeleton_nil, calm_nil⟩⟩
  | commentLeft is _ ih =>
    obtain ⟨shown, hfirst, hsecond⟩ := ih depth
    exact ⟨shown, hfirst.comment is, hsecond⟩
  | commentRight is _ ih =>
    obtain ⟨shown, hfirst, hsecond⟩ := ih depth
    exact ⟨shown, hfirst, hsecond.comment is⟩
  | settled is _ ih =>
    obtain ⟨shown, hfirst, hsecond⟩ := ih depth
    exact ⟨_, hfirst.settled is, hsecond.settled is⟩
  | texts opens closes text other _ ih =>
    obtain ⟨shown, hfirst, hsecond⟩ := ih depth
    exact ⟨_, hfirst.texts opens closes text, hsecond.texts opens closes other⟩
  | @move instruction _ _ is _ ih =>
    obtain ⟨shown, hfirst, hsecond⟩ := ih (depthAfter depth instruction)
    exact ⟨_, hfirst.move is, hsecond.move is⟩

theorem Twin.append {first second first' second' : Layout} (h : Twin first second)
    (h' : Twin first' second') : Twin (first ++ first') (second ++ second') := by
  induction h with
  | nil => exact h'
  | commentLeft is _ ih => exact .commentLeft is ih
  | commentRight is _ ih => exact .commentRight is ih
  | settled is _ ih => exact .settled is ih
  | texts opens closes text other _ ih => exact .texts opens closes text other ih
  | move is _ ih => exact .move is ih

theorem Twin.block {header : String} {first second : Layout} (hheader : Row header) (suffix : String)
    (hsuffix : Piece suffix) (h : Twin first second) :
    Twin (block header suffix first) (block header suffix second) := by
  have hclosing : Row ("\x7d" ++ suffix) := (row_of_head (by decide) (by decide)).append hsuffix
  have hlast : Twin [.outdent, .line ("\x7d" ++ suffix)] [.outdent, .line ("\x7d" ++ suffix)] :=
    .move (by decide) (.settled (settled_code hclosing) .nil)
  have hfirst : Twin [.line (header ++ " \x7b"), .indent] [.line (header ++ " \x7b"), .indent] :=
    .settled (settled_block hheader) (.move (by decide) .nil)
  exact (hfirst.append h).append hlast

theorem Twin.flatMap {α : Type} {items others : List α} {form form' : α → Layout}
    (h : List.Forall₂ (fun item other => Twin (form item) (form' other)) items others) :
    Twin (items.flatMap form) (others.flatMap form') := by
  induction h with
  | nil => exact .nil
  | cons hitem _ ih => exact hitem.append ih

theorem Twin.flatMap_self {α : Type} {items : List α} {form : α → Layout}
    (h : ∀ item ∈ items, Twin (form item) (form item)) : Twin (items.flatMap form) (items.flatMap form) :=
  .flatMap (List.forall₂_same.2 h)

end BundleForge.Layout

namespace BundleForge

open Lexical

/-! ### Names -/

structure Holder.Named (holder : Holder) : Prop where
  name : IsPath holder.name.toList
  result : IsPath holder.result.toList
  accessor : IsPath holder.accessor.toList

structure Method.Named (method : Method) : Prop where
  name : IsPath method.name.toList
  result : IsPath method.result.toList
  holder : IsPath method.holder.toList

structure Conformance.Named (conformance : Conformance) : Prop where
  bundle : IsPath conformance.bundle.toList
  methods : ∀ method ∈ conformance.methods, method.Named

structure Listed.Named (listed : Listed) : Prop where
  name : IsPath listed.name.toList
  holder : IsPath listed.holder.toList

/-- Names in a module consist of the characters of identifiers and paths. -/
structure Implementation.Named (implementation : Implementation) : Prop where
  bundle : IsPath implementation.bundle.path.toList
  locale : ∀ locale ∈ implementation.locale, IsPath locale.toList
  simpleName : IsPath implementation.simpleName.toList
  moduleName : IsPath implementation.moduleName.toList
  holders : ∀ holder ∈ implementation.holders, holder.Named
  conformances : ∀ conformance ∈ implementation.conformances, conformance.Named
  listed : ∀ listed ∈ implementation.listed, listed.Named

namespace Implementation

open Layout (Twin IsComment)

/-! ### Items that are the same -/

theorem twin_line {line : String} (h : Row line) : Twin [.line line] [.line line] :=
  .settled (settled_code h) .nil

theorem twin_blank : Twin [.blank] [.blank] := .move (by decide) .nil

theorem twin_holderLayout {holder : Holder} (h : holder.Named) :
    Twin (holderLayout holder) (holderLayout holder) := by
  have hstruct : Row s!"struct {holder.name};" :=
    ((row_of_head (by decide) (by decide)).append h.name.piece).append (by decide)
  have himpl : Row ("impl " ++ holder.name) :=
    (row_of_head (by decide) (by decide)).append h.name.piece
  have hget : Row s!"fn get() -> &'static dyn {holder.result}" :=
    (row_of_head (by decide) (by decide)).append h.result.piece
  have hcall : Row (instanceIdent ++ s!".{holder.accessor}_initializer()") :=
    (row_of_head (by decide) (by decide)).append
      (Piece.append (Piece.append (by decide) h.accessor.piece) (by decide))
  have hbody := ((twin_line hcall).block hget "" (by decide)).block himpl "" (by decide)
  exact (((twin_line hstruct).append twin_blank).append hbody).append twin_blank

theorem twin_methodLayout {method : Method} (h : method.Named) :
    Twin (methodLayout method) (methodLayout method) := by
  have hheader : Row s!"fn {method.name}(&self) -> &'static dyn {method.result}" :=
    (((row_of_head (by decide) (by decide)).append h.name.piece).append (by decide)).append
      h.result.piece
  have hcall : Row s!"{method.holder}::get()" := row_of_path h.holder (by decide) (by decide)
  exact (twin_line hcall).block hheader "" (by decide)

theorem twin_conformanceLayout {simpleName : String} {conformance : Conformance}
    (hsimple : IsPath simpleName.toList) (h : conformance.Named) :
    Twin (conformanceLayout simpleName conformance) (conformanceLayout simpleName conformance) := by
  have hheader : Row s!"impl {conformance.bundle} for {simpleName}" :=
    (((row_of_head (by decide) (by decide)).append h.bundle.piece).append (by decide)).append
      hsimple.piece
  have hmethods := h.methods
  unfold conformanceLayout
  dsimp only
  split
  · exact .settled (settled_braces hheader) twin_blank
  · rename_i first rest heq
    rw [heq, List.forall_mem_cons] at hmethods
    have hrest : Twin (rest.flatMap fun method => .blank :: methodLayout method)
        (rest.flatMap fun method => .blank :: methodLayout method) :=
      .flatMap_self fun method hmem => twin_blank.append (twin_methodLayout (hmethods.2 method hmem))
    exact (((twin_methodLayout hmethods.1).append hrest).block hheader "" (by decide)).append twin_blank

theorem escape_of_isPath {text : String} (h : IsPath text.toList) : Literal.escape text = text := by
  have hsame : ∀ c ∈ text.toList, Literal.escapeChar c = [c] := by
    intro c hc
    have hne : ∀ d : Char, ¬ (isWord d = true ∨ d = ':') → c ≠ d := fun d hd heq => hd (heq ▸ h c hc)
    rw [Literal.escapeChar, if_neg (hne _ (by decide)), if_neg (hne _ (by decide)),
      if_neg (hne _ (by decide)), if_neg (hne _ (by decide)), if_neg (hne _ (by decide))]
  have hflat : text.toList.flatMap Literal.escapeChar = text.toList := by
    rw [List.flatMap_congr hsame]
    exact List.flatMap_singleton' _
  rw [Literal.escape, hflat, String.ofList_toList]

theorem twin_listed {listed : Listed} (h : listed.Named) :
    Twin [.line ("(\"" ++ listed.name ++ s!"\", {listed.holder}::get() as {prototypeReference}),")]
      [.line ("(\"" ++ listed.name ++ s!"\", {listed.holder}::get() as {prototypeReference}),")] := by
  have hbefore : Before "(" :=
    { toRow := row_of_head (by decide) (by decide)
      opens := by decide
      ends := by
        rintro blanks hsuffix
        have hcolon : ':' ∈ List.replicate blanks ' ' ++ "(".toList := hsuffix.subset (by decide)
        rcases List.mem_append.1 hcolon with hmem | hmem
        · exact absurd (List.eq_of_mem_replicate hmem) (by decide)
        · revert hmem
          decide }
  have hlast : Piece (listed.holder ++ s!"::get() as {prototypeReference}),") :=
    h.holder.piece.append (by decide +kernel)
  have hafter : Piece (", " ++ (listed.holder ++ s!"::get() as {prototypeReference}),")) :=
    Piece.append (by decide) hlast
  have hcloses : Closes (", " ++ (listed.holder ++ s!"::get() as {prototypeReference}),")).toList := by
    have hcomma : Closes ", ".toList := by decide
    rw [String.toList_append]
    exact hcomma.append hlast.codes
  have hline : "(\"" ++ listed.name ++ s!"\", {listed.holder}::get() as {prototypeReference})," =
      "(" ++ Literal.literal listed.name ++
        (", " ++ (listed.holder ++ s!"::get() as {prototypeReference}),")) := by
    have hopen : ("(\"" : String) = "(" ++ "\"" := by decide
    have hclose : toString "\", " = "\"" ++ ", " := by decide
    rw [Literal.literal, escape_of_isPath h.name, hopen, hclose]
    simp only [String.append_assoc]
    rfl
  rw [hline]
  exact .settled (settled_literal hbefore hafter hcloses) .nil

theorem twin_resourcesLayout {listed : List Listed} (h : ∀ entry ∈ listed, entry.Named) :
    Twin (resourcesLayout listed) (resourcesLayout listed) := by
  have hheader : Row s!"fn resources(&self) -> ::std::vec::Vec<{prototypeReference}>" :=
    row_of_head (by decide +kernel) (by decide +kernel)
  unfold resourcesLayout
  refine Twin.block hheader "" (by decide) ?_
  split
  · exact twin_line (row_of_head (by decide) (by decide))
  · have hentries : Twin (listed.map fun entry => .line s!"{entry.holder}::get() as {prototypeReference},")
        (listed.map fun entry => .line s!"{entry.holder}::get() as {prototypeReference},") := by
      rw [List.map_eq_flatMap]
      refine Twin.flatMap_self fun entry hmem => twin_line ?_
      exact ((row_of_path (h entry hmem).holder (by decide) (by decide)).append (by decide)).append
        (by decide)
    have hopen : Twin [.line "::std::vec![", .indent] [.line "::std::vec![", .indent] :=
      (twin_line (row_of_head (by decide) (by decide))).append (.move (by decide) .nil)
    have hclose : Twin [.outdent, .line "]"] [.outdent, .line "]"] :=
      .move (by decide) (twin_line (row_of_head (by decide) (by decide)))
    exact (hopen.append hentries).append hclose

theorem twin_resourceLayout {listed : List Listed} (h : ∀ entry ∈ listed, entry.Named) :
    Twin (resourceLayout listed) (resourceLayout listed) := by
  have hheader :
      Row s!"fn resource(&self, name: &str) -> ::std::option::Option<{prototypeReference}>" :=
    row_of_head (by decide +kernel) (by decide +kernel)
  have hentries : Twin
      (listed.map fun entry => .line
        ("(\"" ++ entry.name ++ s!"\", {entry.holder}::get() as {prototypeReference}),"))
      (listed.map fun entry => .line
        ("(\"" ++ entry.name ++ s!"\", {entry.holder}::get() as {prototypeReference}),")) := by
    rw [List.map_eq_flatMap]
    exact Twin.flatMap_self fun entry hmem => twin_listed (h entry hmem)
  have hopen : Twin [.line "::std::collections::HashMap::from([", .indent]
      [.line "::std::collections::HashMap::from([", .indent] :=
    (twin_line (row_of_head (by decide) (by decide))).append (.move (by decide) .nil)
  have hclose : Twin [.outdent, .line "])"] [.outdent, .line "])"] :=
    .move (by decide) (twin_line (row_of_head (by decide) (by decide)))
  have hmap : Twin [.line resourceMapIdent, .indent] [.line resourceMapIdent, .indent] :=
    (twin_line (row_of_head (by decide) (by decide))).append (.move (by decide) .nil)
  have hlookup : Twin [.line ".get(name)", .line ".copied()", .outdent]
      [.line ".get(name)", .line ".copied()", .outdent] :=
    (twin_line (row_of_head (by decide) (by decide))).append
      ((twin_line (row_of_head (by decide) (by decide))).append (.move (by decide) .nil))
  have hfill : Row ".get_or_init(||" := row_of_head (by decide) (by decide)
  have hfilled := ((hopen.append hentries).append hclose).block hfill ")" (by decide)
  exact ((hmap.append hfilled).append hlookup).block hheader "" (by decide)

theorem twin_clientBundleLayout {implementation : Implementation} (h : implementation.Named) :
    Twin (clientBundleLayout implementation) (clientBundleLayout implementation) := by
  have hheader : Row s!"impl {TypeName.clientBundle.path} for {implementation.simpleName}" :=
    (row_of_head (by decide) (by decide)).append h.simpleName.piece
  exact (((twin_resourcesLayout h.listed).append twin_blank).append
    (twin_resourceLayout h.listed)).block hheader "" (by decide)

/-! ### Items that hold texts -/

/-- Statics that are the same, or differ in the text of their value. -/
inductive TwinMember : Member → Member → Prop
  | same {ident type value : String} (ident_path : IsPath ident.toList) (type_piece : Piece type)
      (value_piece : Piece value) : TwinMember ⟨ident, type, value⟩ ⟨ident, type, value⟩
  | texts {ident type : String} (ident_path : IsPath ident.toList) (type_piece : Piece type)
      (text other : String) :
      TwinMember
        ⟨ident, type, "::std::sync::LazyLock::new(|| " ++ Literal.stringExpression text ++ ")"⟩
        ⟨ident, type, "::std::sync::LazyLock::new(|| " ++ Literal.stringExpression other ++ ")"⟩

theorem twin_staticLayout {member other : Member} (h : TwinMember member other) :
    Twin (staticLayout member) (staticLayout other) := by
  cases h with
  | @same ident type value hident htype hvalue =>
    have hline : Row s!"static {ident}: {type} = {value};" :=
      ((((((row_of_head (by decide) (by decide)).append hident.piece).append (by decide)).append
        htype).append (by decide)).append hvalue).append (by decide)
    exact (twin_line hline).append twin_blank
  | @texts ident type hident htype text other =>
    have hopens : Row (s!"static {ident}: {type} = " ++ "::std::sync::LazyLock::new(||") :=
      (((((row_of_head (by decide) (by decide)).append hident.piece).append (by decide)).append
        htype).append (by decide)).append (by decide)
    have hline : ∀ text value : String,
        value = "::std::sync::LazyLock::new(|| " ++ Literal.stringExpression text ++ ")" →
        s!"static {ident}: {type} = {value};" = s!"static {ident}: {type} = " ++
          "::std::sync::LazyLock::new(||" ++ " " ++ Literal.stringExpression text ++ ");" := by
      rintro text _ rfl
      have hopen : ("::std::sync::LazyLock::new(|| " : String) = "::std::sync::LazyLock::new(||" ++ " " := by
        decide
      have hclose : (");" : String) = ")" ++ ";" := by decide
      show "static " ++ ident ++ ": " ++ type ++ " = " ++ ("::std::sync::LazyLock::new(|| " ++
        Literal.stringExpression text ++ ")") ++ ";" = "static " ++ ident ++ ": " ++ type ++ " = " ++
          "::std::sync::LazyLock::new(||" ++ " " ++ Literal.stringExpression text ++ ");"
      rw [hopen, hclose]
      simp only [String.append_assoc]
    unfold staticLayout
    rw [hline text _ rfl, hline other _ rfl]
    exact .texts (prelude_code hopens) (by decide) text other twin_blank

/-- Expressions for the value of an accessor that are the same, or differ in one text. -/
inductive TwinExpression : String → String → Prop
  | same {expression : String} {lexemes : List Lexeme}
      (is : Settled s!"::std::boxed::Box::new({expression})" lexemes) : TwinExpression expression expression
  | texts {opening : String} {lexemes : List Lexeme}
      (is : Prelude ("::std::boxed::Box::new(" ++ opening) lexemes) (text other : String) :
      TwinExpression (opening ++ Literal.stringExpression text ++ ")")
        (opening ++ Literal.stringExpression other ++ ")")

theorem twin_expression {expression other : String} (h : TwinExpression expression other) :
    Twin [.line s!"::std::boxed::Box::new({expression})"] [.line s!"::std::boxed::Box::new({other})"] := by
  cases h with
  | same is => exact .settled is .nil
  | @texts opening lexemes is text other =>
    have hline : ∀ text expression : String, expression = opening ++ Literal.stringExpression text ++ ")" →
        s!"::std::boxed::Box::new({expression})" =
          "::std::boxed::Box::new(" ++ opening ++ Literal.stringExpression text ++ "))" := by
      rintro text _ rfl
      have hclose : ("))" : String) = ")" ++ ")" := by decide
      show "::std::boxed::Box::new(" ++ (opening ++ Literal.stringExpression text ++ ")") ++ ")" =
        "::std::boxed::Box::new(" ++ opening ++ Literal.stringExpression text ++ "))"
      rw [hclose]
      simp only [String.append_assoc]
    rw [hline text _ rfl, hline other _ rfl]
    exact .texts is (by decide) text other .nil

theorem twin_commentsLeft {comments : List String} (h : ∀ comment ∈ comments, IsComment comment)
    {first second : Layout} (htwin : Twin first second) :
    Twin (comments.map .line ++ first) second := by
  induction comments with
  | nil => exact htwin
  | cons comment rest ih =>
    rw [List.forall_mem_cons] at h
    exact .commentLeft h.1 (ih h.2)

theorem twin_commentsRight {comments : List String} (h : ∀ comment ∈ comments, IsComment comment)
    {first second : Layout} (htwin : Twin first second) :
    Twin first (comments.map .line ++ second) := by
  induction comments with
  | nil => exact htwin
  | cons comment rest ih =>
    rw [List.forall_mem_cons] at h
    exact .commentRight h.1 (ih h.2)

/-- Initializers that are the same up to comments and one text. -/
structure TwinInitializer (initializer other : Initializer) : Prop where
  accessor_path : IsPath initializer.accessor.toList
  result_path : IsPath initializer.result.toList
  slot_path : IsPath initializer.slot.toList
  slotType_piece : Piece initializer.slotType
  accessor : initializer.accessor = other.accessor
  result : initializer.result = other.result
  slot : initializer.slot = other.slot
  slotType : initializer.slotType = other.slotType
  comments : ∀ comment ∈ initializer.comments ++ other.comments, IsComment comment
  expression : TwinExpression initializer.expression other.expression

theorem twin_initializerLayout {initializer other : Initializer} (h : TwinInitializer initializer other) :
    Twin (initializerLayout initializer) (initializerLayout other) := by
  have hfn : Row s!"fn {initializer.accessor}_initializer(&self) -> &'static dyn {initializer.result}" :=
    (((row_of_head (by decide) (by decide)).append h.accessor_path.piece).append (by decide)).append
      h.result_path.piece
  have hslot : Row s!"&**{initializer.slot}.get_or_init(|| -> {initializer.slotType}" :=
    (((row_of_head (by decide) (by decide)).append h.slot_path.piece).append (by decide)).append
      h.slotType_piece
  obtain ⟨hleft, hright⟩ := List.forall_mem_append.1 h.comments
  have hbody := twin_commentsLeft hleft (twin_commentsRight hright (twin_expression h.expression))
  have hblock := (hbody.block hslot ")" (by decide)).block hfn "" (by decide)
  unfold initializerLayout
  rw [← h.accessor, ← h.result, ← h.slot, ← h.slotType]
  exact hblock

/-! ### The whole module -/

/-- Modules that differ at most in comments and in the texts of statics and initializers. -/
structure Twins (implementation other : Implementation) : Prop where
  bundle : implementation.bundle = other.bundle
  locale : implementation.locale = other.locale
  simpleName : implementation.simpleName = other.simpleName
  moduleName : implementation.moduleName = other.moduleName
  statics : List.Forall₂ TwinMember implementation.statics other.statics
  fields : implementation.fields = [] ∧ other.fields = []
  initializers : List.Forall₂ TwinInitializer implementation.initializers other.initializers
  holders : implementation.holders = other.holders
  conformances : implementation.conformances = other.conformances
  listed : implementation.listed = other.listed

variable {implementation other : Implementation}

theorem twin_lints : Twin [.line lints, .blank] [.line lints, .blank] := by
  have hsecond :
      Piece "non_snake_case, non_upper_case_globals, trivial_casts, unused_qualifications, " :=
    piece_ofList (by decide +kernel)
  have hthird : Piece "clippy::all, clippy::pedantic, clippy::nursery, clippy::restriction)]" :=
    piece_ofList (by decide +kernel)
  unfold lints
  rw [String.append_assoc]
  exact .settled (settled_attribute (piece_ofList (by decide +kernel)) (hsecond.append hthird)) twin_blank

theorem twin_structLayout (htwins : Twins implementation other) (h : implementation.Named) :
    Twin (structLayout implementation) (structLayout other) := by
  have hheader : Row ("pub struct " ++ implementation.simpleName) :=
    (row_of_head (by decide) (by decide)).append h.simpleName.piece
  have hline : "pub struct " ++ implementation.simpleName ++ " \x7b\x7d" =
      ("pub struct " ++ implementation.simpleName) ++ " \x7b\x7d" := rfl
  unfold structLayout
  rw [htwins.fields.1, htwins.fields.2, ← htwins.simpleName]
  exact .settled (settled_braces hheader) twin_blank

theorem twin_inherentLayout (htwins : Twins implementation other) (h : implementation.Named) :
    Twin (inherentLayout implementation) (inherentLayout other) := by
  have himpl : Row ("impl " ++ implementation.simpleName) :=
    (row_of_head (by decide) (by decide)).append h.simpleName.piece
  have hnew : Row "pub const fn new() -> Self" := row_of_head (by decide) (by decide)
  have hself : Row "Self" := row_of_head (by decide) (by decide)
  have hvalue : Twin [.line "Self \x7b\x7d"] [.line "Self \x7b\x7d"] := .settled (settled_braces hself) .nil
  have hinitializers : Twin
      (implementation.initializers.flatMap fun initializer => .blank :: initializerLayout initializer)
      (other.initializers.flatMap fun initializer => .blank :: initializerLayout initializer) := by
    refine Twin.flatMap (htwins.initializers.imp fun initializer other htwin => ?_)
    exact twin_blank.append (twin_initializerLayout htwin)
  unfold inherentLayout selfLayout
  rw [htwins.fields.1, htwins.fields.2, ← htwins.simpleName]
  exact (((hvalue.block hnew "" (by decide)).append hinitializers).block himpl "" (by decide)).append
    twin_blank

theorem isComment_heading (h : implementation.Named) : IsComment implementation.heading := by
  have hpath : ∀ {text : String}, IsPath text.toList → ∀ c ∈ text.toList, c ≠ '\n' ∧ c ≠ '\r' := by
    intro text htext c hc
    refine ⟨?_, ?_⟩ <;> rintro rfl <;> exact absurd (htext _ hc) (by decide)
  have hscope : ∃ scope : String, (∀ c ∈ scope.toList, c ≠ '\n' ∧ c ≠ '\r') ∧ implementation.heading =
      "// Generated by resource-bundler from " ++ implementation.bundle.path ++ scope ++ ". Do not edit." := by
    unfold heading
    cases hlocale : implementation.locale with
    | none => exact ⟨"", by decide, rfl⟩
    | some locale =>
      refine ⟨" for locale " ++ locale, ?_, rfl⟩
      rw [String.toList_append, List.forall_mem_append]
      exact ⟨by decide, hpath (h.locale locale hlocale)⟩
  obtain ⟨scope, hflat, hheading⟩ := hscope
  refine ⟨"Generated by resource-bundler from ".toList ++ (implementation.bundle.path.toList ++
    (scope.toList ++ ". Do not edit.".toList)), ?_, ?_⟩
  · rw [hheading, String.toList_append, String.toList_append, String.toList_append, List.append_assoc,
      List.append_assoc]
    rfl
  · rw [List.forall_mem_append, List.forall_mem_append, List.forall_mem_append]
    exact ⟨by decide, hpath h.bundle, hflat, by decide⟩

theorem Twins.heading_eq (h : Twins implementation other) : implementation.heading = other.heading := by
  have hbundle := h.bundle
  have hlocale := h.locale
  unfold heading
  simp only [hbundle, hlocale]

theorem twin_layout (htwins : Twins implementation other) (h : implementation.Named) :
    Twin implementation.layout other.layout := by
  have huse : Row s!"pub use self::{implementation.moduleName}::{implementation.simpleName};" :=
    ((((row_of_head (by decide) (by decide)).append h.moduleName.piece).append (by decide)).append
      h.simpleName.piece).append (by decide)
  have hmod : Row ("mod " ++ implementation.moduleName) :=
    (row_of_head (by decide) (by decide)).append h.moduleName.piece
  have hstatics : Twin (implementation.statics.flatMap staticLayout) (other.statics.flatMap staticLayout) :=
    .flatMap (htwins.statics.imp fun _ _ => twin_staticLayout)
  have hholders : Twin (implementation.holders.flatMap holderLayout)
      (implementation.holders.flatMap holderLayout) :=
    .flatMap_self fun holder hmem => twin_holderLayout (h.holders holder hmem)
  have hconformances : Twin
      (implementation.conformances.flatMap (conformanceLayout implementation.simpleName))
      (implementation.conformances.flatMap (conformanceLayout implementation.simpleName)) :=
    .flatMap_self fun conformance hmem =>
      twin_conformanceLayout h.simpleName (h.conformances conformance hmem)
  have hbundle : clientBundleLayout other = clientBundleLayout implementation := by
    unfold clientBundleLayout
    rw [htwins.simpleName, htwins.listed]
  have hmodule : Twin (moduleLayout implementation) (moduleLayout other) := by
    unfold moduleLayout
    rw [hbundle, ← htwins.holders, ← htwins.conformances, ← htwins.simpleName]
    exact ((((((twin_lints.append hstatics).append (twin_structLayout htwins h)).append
      (twin_inherentLayout htwins h)).append hholders).append hconformances).append
      (twin_clientBundleLayout h))
  have hhead : Twin
      [.line implementation.heading, .blank,
        .line s!"pub use self::{implementation.moduleName}::{implementation.simpleName};", .blank]
      [.line other.heading, .blank,
        .line s!"pub use self::{other.moduleName}::{other.simpleName};", .blank] := by
    rw [← htwins.moduleName, ← htwins.simpleName, ← htwins.heading_eq]
    exact .commentLeft (isComment_heading h) (.commentRight (isComment_heading h)
      (twin_blank.append ((twin_line huse).append twin_blank)))
  unfold layout
  refine hhead.append ?_
  rw [← htwins.moduleName]
  exact hmodule.block hmod "" (by decide)

end Implementation

/-- Both sources are read by the lexical rules of the language, and without comments and with one place for each
expression that spells a text they are the same. -/
def SameSkeleton (source other : String) : Prop :=
  ∃ lexemes lexemes', lexemes? source = some lexemes ∧ lexemes? other = some lexemes' ∧
    skeleton lexemes = skeleton lexemes'

theorem Implementation.Twins.sameSkeleton {implementation other : Implementation}
    (htwins : implementation.Twins other) (h : implementation.Named) :
    SameSkeleton implementation.source other.source := by
  obtain ⟨shown, ⟨lexemes, hreads, hskeleton, -⟩, lexemes', hreads', hskeleton', -⟩ :=
    (twin_layout htwins h).exists_shows 0
  refine ⟨lexemes, lexemes', lexemes?_of_reads ?_, lexemes?_of_reads ?_, hskeleton.trans hskeleton'.symm⟩
  · rw [source, Layout.render, String.toList_ofList]
    exact hreads
  · rw [source, Layout.render, String.toList_ofList]
    exact hreads'

end BundleForge
