import BundleForge.Implementation.Source
import BundleForge.Proofs.Layout
/-!
# Where the items of a module stand

Every item of an implementation is a part of the layout of its module, at a depth that depends on the
kind of item alone: statics, holders and conformances stand in the module itself, initializers one
level deeper. What is written for an item is therefore found in the source.
-/

namespace BundleForge.Implementation

open Layout (Balanced At)

theorem balanced_staticLayout (member : Member) : Balanced (staticLayout member) :=
  Balanced.line_cons _ Layout.balanced_blank

theorem balanced_structLayout (implementation : Implementation) :
    Balanced (structLayout implementation) := by
  unfold structLayout
  split
  · exact Balanced.line_cons _ Layout.balanced_blank
  · exact ((Layout.balanced_map_line _ _).block _ _).append Layout.balanced_blank

theorem balanced_selfLayout (implementation : Implementation) :
    Balanced (selfLayout implementation) := by
  unfold selfLayout
  split
  · exact Layout.balanced_line _
  · exact (Layout.balanced_map_line _ _).block _ _

theorem balanced_initializerLayout (initializer : Initializer) :
    Balanced (initializerLayout initializer) :=
  (((Layout.balanced_map_line initializer.comments id).append
    (Layout.balanced_line _)).block _ _).block _ _

theorem balanced_holderLayout (holder : Holder) : Balanced (holderLayout holder) := by
  have hbody : Balanced (Layout.block ("impl " ++ holder.name) ""
      (Layout.block s!"fn get() -> &'static dyn {holder.result}" ""
        [.line (instanceIdent ++ s!".{holder.accessor}_initializer()")])) :=
    ((Layout.balanced_line _).block _ _).block _ _
  exact ((Balanced.line_cons _ Layout.balanced_blank).append hbody).append Layout.balanced_blank

theorem balanced_methodLayout (method : Method) : Balanced (methodLayout method) :=
  (Layout.balanced_line _).block _ _

theorem balanced_conformanceLayout (simpleName : String) (conformance : Conformance) :
    Balanced (conformanceLayout simpleName conformance) := by
  unfold conformanceLayout
  dsimp only
  split
  · exact Balanced.line_cons _ Layout.balanced_blank
  · rename_i first rest _
    have hrest : Balanced (rest.flatMap fun method => .blank :: methodLayout method) :=
      Balanced.flatMap fun method _ => (balanced_methodLayout method).blank_cons
    exact ((balanced_methodLayout first).append hrest |>.block _ _).append Layout.balanced_blank

theorem balanced_inherentLayout (implementation : Implementation) :
    Balanced (inherentLayout implementation) := by
  have hrest : Balanced (implementation.initializers.flatMap fun initializer =>
      .blank :: initializerLayout initializer) :=
    Balanced.flatMap fun initializer _ => (balanced_initializerLayout initializer).blank_cons
  exact ((((balanced_selfLayout implementation).block _ _).append hrest).block _ _).append
    Layout.balanced_blank

variable {implementation : Implementation}

private theorem balanced_statics : Balanced ([.line lints, .blank] ++
    implementation.statics.flatMap staticLayout ++ structLayout implementation) :=
  ((Balanced.line_cons _ Layout.balanced_blank).append
    (Balanced.flatMap fun member _ => balanced_staticLayout member)).append
    (balanced_structLayout implementation)

private theorem balanced_holders : Balanced (implementation.holders.flatMap holderLayout) :=
  Balanced.flatMap fun holder _ => balanced_holderLayout holder

theorem at_layout {depth : Nat} {part : Layout} (h : At depth part (moduleLayout implementation)) :
    At (depth + 1) part implementation.layout := by
  refine (h.block _ "").append_right ?_
  exact Balanced.line_cons _ (Balanced.blank_cons (Balanced.line_cons _ Layout.balanced_blank))

theorem at_static {member : Member} (h : member ∈ implementation.statics) :
    At 1 (staticLayout member) implementation.layout := by
  have hall : At 0 (staticLayout member) (implementation.statics.flatMap staticLayout) :=
    At.flatMap h (At.self _) fun other _ => balanced_staticLayout other
  refine at_layout ?_
  refine At.append_left (At.append_left (At.append_left (At.append_left (At.append_left ?_ _) _) _)
    _) _
  exact hall.append_right (Balanced.line_cons _ Layout.balanced_blank)

theorem at_initializer {initializer : Initializer}
    (h : initializer ∈ implementation.initializers) :
    At 2 (initializerLayout initializer) implementation.layout := by
  have hitem : At 0 (initializerLayout initializer)
      (.blank :: initializerLayout initializer) :=
    (At.self (initializerLayout initializer)).append_right Layout.balanced_blank
  have hall : At 0 (initializerLayout initializer) (implementation.initializers.flatMap
      fun other => .blank :: initializerLayout other) :=
    At.flatMap h hitem fun other _ => (balanced_initializerLayout other).blank_cons
  have hinherent : At 1 (initializerLayout initializer) (inherentLayout implementation) := by
    refine At.append_left (At.block (hall.append_right ?_) _ _) _
    exact (balanced_selfLayout implementation).block _ _
  refine at_layout ?_
  exact (((hinherent.append_right balanced_statics).append_left _).append_left _).append_left _

theorem at_holder {holder : Holder} (h : holder ∈ implementation.holders) :
    At 1 (holderLayout holder) implementation.layout := by
  have hall : At 0 (holderLayout holder) (implementation.holders.flatMap holderLayout) :=
    At.flatMap h (At.self _) fun other _ => balanced_holderLayout other
  refine at_layout ?_
  refine ((hall.append_right ?_).append_left _).append_left _
  exact balanced_statics.append (balanced_inherentLayout implementation)

theorem at_conformance {conformance : Conformance}
    (h : conformance ∈ implementation.conformances) :
    At 1 (conformanceLayout implementation.simpleName conformance) implementation.layout := by
  have hall : At 0 (conformanceLayout implementation.simpleName conformance)
      (implementation.conformances.flatMap (conformanceLayout implementation.simpleName)) :=
    At.flatMap h (At.self _)
      fun other _ => balanced_conformanceLayout implementation.simpleName other
  refine at_layout ?_
  refine At.append_left (hall.append_right ?_) _
  exact (balanced_statics.append (balanced_inherentLayout implementation)).append balanced_holders

theorem at_clientBundle :
    At 1 (clientBundleLayout implementation) implementation.layout := by
  refine at_layout ?_
  refine (At.self _).append_right ?_
  refine ((balanced_statics.append (balanced_inherentLayout implementation)).append
    balanced_holders).append ?_
  exact Balanced.flatMap fun other _ => balanced_conformanceLayout implementation.simpleName other

/-- A text in which every item of an implementation stands in its form. -/
structure Written (implementation : Implementation) (text : List Char) : Prop where
  static : ∀ member ∈ implementation.statics,
    Layout.renderFrom 1 (staticLayout member) <:+: text
  initializer : ∀ initializer ∈ implementation.initializers,
    Layout.renderFrom 2 (initializerLayout initializer) <:+: text
  holder : ∀ holder ∈ implementation.holders,
    Layout.renderFrom 1 (holderLayout holder) <:+: text
  conformance : ∀ conformance ∈ implementation.conformances,
    Layout.renderFrom 1 (conformanceLayout implementation.simpleName conformance) <:+: text
  clientBundle : Layout.renderFrom 1 (clientBundleLayout implementation) <:+: text

theorem infix_source_of_at {depth : Nat} {part : Layout} (h : At depth part implementation.layout) :
    Layout.renderFrom depth part <:+: implementation.source.toList := by
  obtain ⟨before, after, heq⟩ := h.renderFrom 0
  rw [Nat.zero_add] at heq
  rw [source, Layout.render, String.toList_ofList, heq]
  exact List.infix_append _ _ _

theorem written_source (implementation : Implementation) :
    implementation.Written implementation.source.toList where
  static _ h := infix_source_of_at (at_static h)
  initializer _ h := infix_source_of_at (at_initializer h)
  holder _ h := infix_source_of_at (at_holder h)
  conformance _ h := infix_source_of_at (at_conformance h)
  clientBundle := infix_source_of_at at_clientBundle

end BundleForge.Implementation
