import BundleForge.Proofs.Implementation.Names
import BundleForge.Proofs.Implementation.Twins
import Mathlib.Data.List.Forall2
/-!
# Assemblies that differ in their texts

The module of an assembly is determined, up to comments and texts, by the names in the assembly, by its fields, and
by the expressions for its accessors. If two assemblies have the same names, and their fields and expressions are the
same or differ in one text each, then their modules are twins.
-/

namespace BundleForge

open Lexical
open Layout (IsComment)

/-! ### Accessors and fields -/

/-- Accessors of one name and one kind. Where they look for their resources, which MIME type they declare, and
whether they allow a resource to be embedded is left open. -/
structure Accessor.Alike (accessor other : Accessor) : Prop where
  name : accessor.name = other.name
  kind : accessor.kind = other.kind
  width : accessor.width = other.width
  height : accessor.height = other.height
  locale : accessor.locale = other.locale
  owner : accessor.owner = other.owner

/-- The names that an accessor brings into a module. -/
structure Accessor.Named (accessor : Accessor) : Prop where
  name : IsPath accessor.name.toList
  kind : IsPath accessor.kind.path.toList
  locale : ∀ locale ∈ accessor.locale, IsPath locale.toList
  owner : ∀ owner ∈ accessor.owner, IsPath owner.path.toList

/-- Static fields without a value, or with one that is a text. -/
inductive TwinField : Field → Field → Prop
  | slot {ident type : String} (ident_path : IsPath ident.toList) (type_piece : Piece type) (isFinal : Bool) :
      TwinField ⟨ident, type, none, true, isFinal⟩ ⟨ident, type, none, true, isFinal⟩
  | texts {ident type : String} (ident_path : IsPath ident.toList) (type_piece : Piece type) (isFinal : Bool)
      (text other : String) :
      TwinField ⟨ident, type, some (Literal.stringExpression text), true, isFinal⟩
        ⟨ident, type, some (Literal.stringExpression other), true, isFinal⟩

theorem TwinField.isStatic {field other : Field} (h : TwinField field other) :
    field.isStatic = true ∧ other.isStatic = true := by
  cases h with
  | slot ident_path type_piece isFinal => exact ⟨rfl, rfl⟩
  | texts ident_path type_piece isFinal text other => exact ⟨rfl, rfl⟩

theorem TwinField.ident {field other : Field} (h : TwinField field other) : field.ident = other.ident := by
  cases h with
  | slot ident_path type_piece isFinal => rfl
  | texts ident_path type_piece isFinal text other => rfl

/-! ### Expressions behind comments -/

/-- An initializer that consists of an expression, perhaps behind the comment with an origin. -/
inductive Commented (expression : String) : String → Prop
  | bare : Commented expression expression
  | comment {comment : String} (is : IsComment comment) : Commented expression (comment ++ "\n" ++ expression)

theorem Context.commented (context : Context) (origin expression : String) :
    Commented expression (context.originComment origin ++ expression) := by
  rw [originComment]
  split
  · rw [String.empty_append]
    exact .bare
  · refine .comment ⟨origin.toList.map fun c => if c = '\n' ∨ c = '\r' then ' ' else c, ?_, ?_⟩
    · rw [String.toList_append, String.toList_map]
    · rw [List.forall_mem_map]
      intro c _
      split
      · decide
      · rename_i hc
        exact not_or.1 hc

theorem Commented.split {expression initializer : String} (h : Commented expression initializer)
    (hexpression : ¬ "//".toList <+: expression.toList) :
    (Implementation.splitComments initializer.toList).2 = expression.toList ∧
    ∀ comment ∈ (Implementation.splitComments initializer.toList).1, IsComment (String.ofList comment) := by
  cases h with
  | bare =>
    rw [Implementation.splitComments_of_not_prefix hexpression]
    exact ⟨rfl, fun comment hmem => absurd hmem List.not_mem_nil⟩
  | @comment comment is =>
    obtain ⟨text, htext, hflat⟩ := is
    have hslashes : "//".toList <+: comment.toList := htext ▸ ⟨" ".toList ++ text, rfl⟩
    have hline : '\n' ∉ comment.toList := by
      rw [htext, List.mem_append, not_or]
      exact ⟨by decide, fun hmem => (hflat _ hmem).1 rfl⟩
    have hinitializer : (comment ++ "\n" ++ expression).toList =
        comment.toList ++ '\n' :: expression.toList := by
      rw [String.toList_append, String.toList_append, List.append_assoc]
      rfl
    rw [hinitializer, Implementation.splitComments_comment hslashes hline,
      Implementation.splitComments_of_not_prefix hexpression]
    refine ⟨rfl, List.forall_mem_singleton.2 ?_⟩
    rw [String.ofList_toList]
    exact ⟨text, htext, hflat⟩

/-- Initializers that are the same up to comments and one text. -/
structure TwinText (initializer other expression expression' : String) : Prop where
  first : Commented expression initializer
  second : Commented expression' other
  first_code : ¬ "//".toList <+: expression.toList
  second_code : ¬ "//".toList <+: expression'.toList
  twin : Implementation.TwinExpression expression expression'

/-! ### Assemblies -/

/-- What two passes know of accessors that are alike. -/
structure TwinCode (code other : AccessorCode) : Prop where
  accessor : code.accessor.Alike other.accessor
  slot : code.slot = other.slot
  isPrototype : code.isPrototype = other.isPrototype
  initializer : ∃ expression expression', TwinText code.initializer other.initializer expression expression'

/-- Assemblies of the same names whose fields and expressions differ at most in texts. -/
structure TwinAssembly (assembly other : Assembly) : Prop where
  bundle : assembly.bundle.name = other.bundle.name
  simpleName : assembly.simpleName = other.simpleName
  locale : assembly.locale = other.locale
  supertypes : assembly.supertypes = other.supertypes
  fields : List.Forall₂ TwinField assembly.fields.fields other.fields.fields
  accessors : List.Forall₂ TwinCode assembly.accessors other.accessors

structure Assembly.Named (assembly : Assembly) : Prop where
  bundle : IsPath assembly.bundle.name.path.toList
  simpleName : IsPath assembly.simpleName.toList
  locale : ∀ locale ∈ assembly.locale, IsPath locale.toList
  supertypes : ∀ ty ∈ assembly.supertypes, IsPath ty.path.toList
  accessors : ∀ code ∈ assembly.accessors, code.accessor.Named ∧ IsPath code.slot.toList

namespace Implementation

variable {assembly other : Assembly}

theorem piece_cell {type : String} (h : Piece type) : Piece (cell type) :=
  (Piece.append (by decide) h).append (by decide)

theorem twin_staticMember {field other : Field} (h : TwinField field other) :
    TwinMember (staticMember field) (staticMember other) := by
  cases h with
  | slot hident htype isFinal => exact .same hident (piece_cell htype) (by decide)
  | texts hident htype isFinal text other =>
    exact .texts hident ((Piece.append (by decide) htype).append (by decide)) text other

theorem twin_fixedStatics {simpleName : String} (h : IsPath simpleName.toList) :
    List.Forall₂ TwinMember (fixedStatics simpleName) (fixedStatics simpleName) := by
  have htable : Piece ("::std::collections::HashMap<&'static str, " ++ prototypeReference ++ ">") :=
    (Piece.append (by decide) (by decide +kernel)).append (by decide)
  refine .cons (.same (by decide) h.piece (h.piece.append (by decide))) (.cons ?_ .nil)
  exact .same (by decide) (piece_cell htable) (by decide)

theorem twin_initializerOf {code other : AccessorCode} (h : TwinCode code other) (hnamed : code.accessor.Named)
    (hslot : IsPath code.slot.toList) : TwinInitializer (initializerOf code) (initializerOf other) := by
  obtain ⟨expression, expression', hfirst, hsecond, hcode, hcode', htwin⟩ := h.initializer
  obtain ⟨hexpression, hcomments⟩ := hfirst.split hcode
  obtain ⟨hexpression', hcomments'⟩ := hsecond.split hcode'
  have hpath := isPath_pathInside hnamed.kind
  exact {
    accessor_path := hnamed.name
    result_path := hpath
    slot_path := hslot
    slotType_piece := (Piece.append (by decide) hpath.piece).append (by decide)
    accessor := h.accessor.name
    result := congrArg pathInside h.accessor.kind
    slot := h.slot
    slotType := congrArg slotType h.accessor.kind
    comments := by
      unfold initializerOf
      dsimp only
      rw [List.forall_mem_append, List.forall_mem_map, List.forall_mem_map]
      exact ⟨hcomments, hcomments'⟩
    expression := by
      unfold initializerOf
      dsimp only
      rw [hexpression, hexpression', String.ofList_toList, String.ofList_toList]
      exact htwin }

theorem map_filter_eq {α β γ : Type} {R : α → β → Prop} {items : List α} {others : List β}
    (h : List.Forall₂ R items others) {p : α → Bool} {q : β → Bool} {form : α → γ} {form' : β → γ}
    (hpick : ∀ item other, R item other → p item = q other)
    (hform : ∀ item other, R item other → form item = form' other) :
    (items.filter p).map form = (others.filter q).map form' := by
  induction h with
  | nil => rfl
  | @cons item other rest rest' hitem _ ih =>
    rw [List.filter_cons, List.filter_cons, hpick item other hitem]
    split
    · rw [List.map_cons, List.map_cons, hform item other hitem, ih]
    · exact ih

theorem map_eq {α β γ : Type} {R : α → β → Prop} {items : List α} {others : List β}
    (h : List.Forall₂ R items others) {form : α → γ} {form' : β → γ}
    (hform : ∀ item other, R item other → form item = form' other) : items.map form = others.map form' := by
  have hall := map_filter_eq h (p := fun _ => true) (q := fun _ => true) (fun _ _ _ => rfl) hform
  rwa [List.filter_true, List.filter_true] at hall

theorem forall₂_zip {α β γ : Type} {R : α → β → Prop} {items : List α} {others : List β}
    (h : List.Forall₂ R items others) (names : List γ) :
    List.Forall₂ (fun entry entry' => R entry.1 entry'.1 ∧ entry.2 = entry'.2) (items.zip names)
      (others.zip names) := by
  induction h generalizing names with
  | nil => exact .nil
  | cons hitem _ ih =>
    cases names with
    | nil => exact .nil
    | cons name rest => exact .cons ⟨hitem, rfl⟩ (ih rest)

theorem all_static {fields others : List Field} (h : List.Forall₂ TwinField fields others) :
    (∀ field ∈ fields, field.isStatic = true) ∧ ∀ field ∈ others, field.isStatic = true := by
  induction h with
  | nil => exact ⟨fun _ hmem => absurd hmem List.not_mem_nil, fun _ hmem => absurd hmem List.not_mem_nil⟩
  | cons hfield _ ih =>
    rw [List.forall_mem_cons, List.forall_mem_cons]
    exact ⟨⟨hfield.isStatic.1, ih.1⟩, hfield.isStatic.2, ih.2⟩

theorem members_of_static {registry : FieldRegistry} (h : ∀ field ∈ registry.fields, field.isStatic = true) :
    registry.statics = registry.fields ∧ registry.instanceFields = [] := by
  constructor
  · exact List.filter_eq_self.2 h
  · refine List.filter_eq_nil_iff.2 fun field hmem => ?_
    rw [h field hmem]
    decide

/-! ### Holders and owners -/

theorem twin_held (h : TwinAssembly assembly other) :
    List.Forall₂ (fun entry entry' => TwinCode entry.1 entry'.1 ∧ entry.2 = entry'.2) (held assembly)
      (held other) := by
  have hnames : assembly.accessors.map (·.accessor.name) = other.accessors.map (·.accessor.name) :=
    map_eq h.accessors fun _ _ hcode => hcode.accessor.name
  rw [held, held, h.simpleName, hnames]
  exact forall₂_zip h.accessors _

theorem ownerOf_twin (h : TwinAssembly assembly other) {code code' : AccessorCode} (hcode : TwinCode code code') :
    ownerOf assembly code = ownerOf other code' := by
  rw [ownerOf, ownerOf, hcode.accessor.owner, h.bundle]

theorem owners_twin (h : TwinAssembly assembly other) : owners assembly = owners other := by
  rw [owners, owners, h.bundle, h.supertypes, map_eq h.accessors fun _ _ => ownerOf_twin h]

theorem conformanceOf_twin (h : TwinAssembly assembly other) (owner : TypeName) :
    conformanceOf assembly (held assembly) owner = conformanceOf other (held other) owner := by
  rw [conformanceOf, conformanceOf]
  refine congrArg _ (map_filter_eq (twin_held h) ?_ ?_)
  · rintro ⟨code, holder⟩ ⟨code', holder'⟩ ⟨hcode, -⟩
    dsimp only at hcode ⊢
    rw [ownerOf_twin h hcode]
  · rintro ⟨code, holder⟩ ⟨code', holder'⟩ ⟨hcode, rfl⟩
    dsimp only at hcode ⊢
    rw [hcode.accessor.kind, hcode.accessor.name]

theorem named_held (h : assembly.Named) :
    ∀ entry ∈ held assembly, entry.1.accessor.Named ∧ IsPath entry.2.toList := by
  intro entry hentry
  obtain ⟨hcode, hname⟩ := List.of_mem_zip hentry
  refine ⟨(h.accessors _ hcode).1, isPath_of_mem_holderNames ?_ hname⟩
  rw [List.forall_mem_map]
  exact fun code hcode => (h.accessors code hcode).1.name

theorem isPath_ownerOf (h : assembly.Named) {code : AccessorCode} (hcode : code ∈ assembly.accessors) :
    IsPath (ownerOf assembly code).path.toList := by
  rw [ownerOf]
  cases howner : code.accessor.owner with
  | none => exact h.bundle
  | some owner => exact (h.accessors code hcode).1.owner owner howner

theorem isPath_of_mem_owners (h : assembly.Named) {owner : TypeName} (howner : owner ∈ owners assembly) :
    IsPath owner.path.toList := by
  rw [owners, List.mem_eraseDups, List.mem_append, List.mem_cons, List.mem_map] at howner
  rcases howner with (rfl | hsuper) | ⟨code, hcode, rfl⟩
  · exact h.bundle
  · exact h.supertypes owner hsuper
  · exact isPath_ownerOf h hcode

theorem named_conformanceOf (h : assembly.Named) (owner : TypeName) :
    ∀ method ∈ (conformanceOf assembly (held assembly) owner).methods, method.Named := by
  unfold conformanceOf
  dsimp only
  rw [List.forall_mem_map]
  intro entry hentry
  obtain ⟨hnamed, hname⟩ := named_held h entry (List.mem_of_mem_filter hentry)
  exact ⟨hnamed.name, isPath_pathInside hnamed.kind, hname⟩

/-! ### The module of an assembly -/

theorem twin_statics (h : TwinAssembly assembly other) (hnamed : assembly.Named) :
    List.Forall₂ TwinMember (ofAssembly assembly).statics (ofAssembly other).statics := by
  obtain ⟨hstatic, hstatic'⟩ := all_static h.fields
  unfold ofAssembly
  dsimp only
  rw [(members_of_static hstatic).1, (members_of_static hstatic').1, ← h.simpleName]
  refine List.rel_append (twin_fixedStatics hnamed.simpleName) ?_
  rw [List.forall₂_map_left_iff, List.forall₂_map_right_iff]
  exact h.fields.imp fun _ _ => twin_staticMember

theorem fields_ofAssembly (hstatic : ∀ field ∈ assembly.fields.fields, field.isStatic = true) :
    (ofAssembly assembly).fields = [] := by
  unfold ofAssembly
  dsimp only
  rw [(members_of_static hstatic).2, List.map_nil]

theorem twin_initializers (h : TwinAssembly assembly other) (hnamed : assembly.Named) :
    List.Forall₂ TwinInitializer (ofAssembly assembly).initializers (ofAssembly other).initializers := by
  unfold ofAssembly
  dsimp only
  rw [List.forall₂_map_left_iff, List.forall₂_map_right_iff]
  refine ((List.forall₂_and_left _ _).2 ⟨hnamed.accessors, h.accessors⟩).imp fun code code' hcode => ?_
  exact twin_initializerOf hcode.2 hcode.1.1 hcode.1.2

theorem twins_ofAssembly (h : TwinAssembly assembly other) (hnamed : assembly.Named) :
    Twins (ofAssembly assembly) (ofAssembly other) where
  bundle := h.bundle
  locale := h.locale
  simpleName := h.simpleName
  moduleName := congrArg ("__" ++ Identifier.toSnakeCase ·) h.simpleName
  statics := twin_statics h hnamed
  fields := (all_static h.fields).imp fields_ofAssembly fields_ofAssembly
  initializers := twin_initializers h hnamed
  holders := by
    refine map_eq (twin_held h) ?_
    rintro ⟨code, holder⟩ ⟨code', holder'⟩ ⟨hcode, rfl⟩
    dsimp only at hcode ⊢
    rw [hcode.accessor.kind, hcode.accessor.name]
  conformances := by
    show (owners assembly).map _ = (owners other).map _
    rw [owners_twin h]
    exact List.map_congr_left fun owner _ => conformanceOf_twin h owner
  listed := by
    refine map_filter_eq (twin_held h) (fun entry entry' hentry => hentry.1.isPrototype) ?_
    rintro ⟨code, holder⟩ ⟨code', holder'⟩ ⟨hcode, rfl⟩
    dsimp only at hcode ⊢
    rw [hcode.accessor.name]

theorem named_ofAssembly (h : assembly.Named) : (ofAssembly assembly).Named where
  bundle := h.bundle
  locale := h.locale
  simpleName := h.simpleName
  moduleName := by
    show IsPath ("__" ++ Identifier.toSnakeCase assembly.simpleName).toList
    rw [String.toList_append]
    exact IsPath.append (by decide) (Identifier.isPath_toSnakeCase h.simpleName)
  holders := by
    refine List.forall_mem_map.2 fun entry hentry => ?_
    obtain ⟨hnamed, hname⟩ := named_held h entry hentry
    exact ⟨hname, isPath_pathInside hnamed.kind, hnamed.name⟩
  conformances := by
    refine List.forall_mem_map.2 fun owner howner => ?_
    exact ⟨isPath_pathInside (isPath_of_mem_owners h howner), named_conformanceOf h owner⟩
  listed := by
    refine List.forall_mem_map.2 fun entry hentry => ?_
    obtain ⟨hnamed, hname⟩ := named_held h entry (List.mem_of_mem_filter hentry)
    exact ⟨hnamed.name, hname⟩

end Implementation

/-- Assemblies that differ in texts have sources of one skeleton. -/
theorem TwinAssembly.sameSkeleton {assembly other : Assembly} (h : TwinAssembly assembly other)
    (hnamed : assembly.Named) : SameSkeleton assembly.source other.source :=
  (Implementation.twins_ofAssembly h hnamed).sameSkeleton (Implementation.named_ofAssembly hnamed)

end BundleForge
