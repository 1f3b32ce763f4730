import BundleForge.Layout
import Mathlib.Data.List.Basic
/-!
# Parts of a layout

A layout is written from left to right, and the only thing a part of it learns from what stands before
it is the depth at which it starts. `At depth part layout` says that a part stands in a layout at a
depth, relative to where the layout starts; what is written for the layout then contains what is
written for the part at that depth. A part is found step by step through blocks, each of which lies one
level deeper, and past balanced layouts, which leave the depth as it is.
-/

namespace BundleForge.Layout

/-- A layout that ends at the depth at which it starts. -/
def Balanced (layout : Layout) : Prop :=
  ∀ depth, layout.foldl depthAfter depth = depth

theorem renderFrom_append (depth : Nat) (first second : Layout) :
    renderFrom depth (first ++ second) =
      renderFrom depth first ++ renderFrom (first.foldl depthAfter depth) second := by
  induction first generalizing depth with
  | nil => rfl
  | cons instruction rest ih =>
    rw [List.cons_append, renderFrom, renderFrom, ih, List.append_assoc, List.foldl_cons]

@[simp] theorem balanced_nil : Balanced [] := fun _ => rfl

@[simp] theorem balanced_line (text : String) : Balanced [.line text] := fun _ => rfl

@[simp] theorem balanced_blank : Balanced [.blank] := fun _ => rfl

theorem Balanced.append {first second : Layout} (hfirst : Balanced first)
    (hsecond : Balanced second) : Balanced (first ++ second) := by
  intro depth
  rw [List.foldl_append, hfirst, hsecond]

theorem Balanced.line_cons {layout : Layout} (text : String) (h : Balanced layout) :
    Balanced (.line text :: layout) :=
  fun depth => h depth

theorem Balanced.blank_cons {layout : Layout} (h : Balanced layout) : Balanced (.blank :: layout) :=
  fun depth => h depth

theorem Balanced.indented {body : Layout} (h : Balanced body) :
    Balanced ([.indent] ++ body ++ [.outdent]) := by
  intro depth
  rw [List.foldl_append, List.foldl_append]
  show depthAfter (body.foldl depthAfter (depth + 1)) .outdent = depth
  rw [h]
  rfl

theorem Balanced.block {body : Layout} (header suffix : String) (h : Balanced body) :
    Balanced (block header suffix body) := by
  have hclosed : Balanced ([.indent] ++ body ++ [.outdent] ++ [.line ("\x7d" ++ suffix)]) :=
    h.indented.append (balanced_line _)
  have heq : Layout.block header suffix body = .line (header ++ " \x7b") ::
      ([.indent] ++ body ++ [.outdent] ++ [.line ("\x7d" ++ suffix)]) := by
    simp [Layout.block]
  rw [heq]
  exact hclosed.line_cons _

theorem Balanced.flatMap {α : Type} {items : List α} {form : α → Layout}
    (h : ∀ item ∈ items, Balanced (form item)) : Balanced (items.flatMap form) := by
  induction items with
  | nil => exact balanced_nil
  | cons item rest ih =>
    rw [List.flatMap_cons]
    exact (h item List.mem_cons_self).append
      (ih fun other hother => h other (List.mem_cons_of_mem _ hother))

theorem balanced_map_line {α : Type} (items : List α) (text : α → String) :
    Balanced (items.map fun item => .line (text item)) := by
  induction items with
  | nil => exact balanced_nil
  | cons item rest ih => exact ih.line_cons _

/-- A part of a layout, and how much deeper it stands than the layout starts. -/
def At (depth : Nat) (part layout : Layout) : Prop :=
  ∃ before after, layout = before ++ part ++ after ∧
    ∀ start, before.foldl depthAfter start = start + depth

theorem At.self (part : Layout) : At 0 part part :=
  ⟨[], [], by simp, fun _ => rfl⟩

theorem At.append_left {depth : Nat} {part layout : Layout} (h : At depth part layout)
    (after : Layout) : At depth part (layout ++ after) := by
  obtain ⟨first, last, rfl, hdepth⟩ := h
  exact ⟨first, last ++ after, by simp, hdepth⟩

theorem At.append_right {depth : Nat} {part layout before : Layout} (h : At depth part layout)
    (hbefore : Balanced before) : At depth part (before ++ layout) := by
  obtain ⟨first, last, rfl, hdepth⟩ := h
  refine ⟨before ++ first, last, by simp, fun start => ?_⟩
  rw [List.foldl_append, hbefore, hdepth]

theorem At.block {depth : Nat} {part body : Layout} (h : At depth part body)
    (header suffix : String) : At (depth + 1) part (block header suffix body) := by
  obtain ⟨first, last, rfl, hdepth⟩ := h
  refine ⟨[.line (header ++ " \x7b"), .indent] ++ first,
    last ++ [.outdent, .line ("\x7d" ++ suffix)], by simp [Layout.block], fun start => ?_⟩
  rw [List.foldl_append]
  show first.foldl depthAfter (start + 1) = _
  rw [hdepth]
  omega

theorem At.flatMap {α : Type} {depth : Nat} {part : Layout} {items : List α} {form : α → Layout}
    {item : α} (hitem : item ∈ items) (h : At depth part (form item))
    (hbalanced : ∀ other ∈ items, Balanced (form other)) :
    At depth part (items.flatMap form) := by
  obtain ⟨before, after, rfl⟩ := List.append_of_mem hitem
  rw [List.flatMap_append, List.flatMap_cons]
  refine (h.append_left _).append_right (Balanced.flatMap fun other hother => ?_)
  exact hbalanced other (List.mem_append_left _ hother)

/-- What is written for a layout contains what is written for each of its parts. -/
theorem At.renderFrom {depth : Nat} {part layout : Layout} (h : At depth part layout) (start : Nat) :
    ∃ before after,
      renderFrom start layout = before ++ renderFrom (start + depth) part ++ after := by
  obtain ⟨first, last, rfl, hdepth⟩ := h
  refine ⟨Layout.renderFrom start first,
    Layout.renderFrom ((first ++ part).foldl depthAfter start) last, ?_⟩
  rw [renderFrom_append, renderFrom_append, hdepth]

/-! ### Lines -/

def indentation (depth : Nat) : List Char := List.replicate (4 * depth) ' '

theorem renderLine_of_ne_nil {line : List Char} (h : line ≠ []) (depth : Nat) :
    renderLine depth line = indentation depth ++ line ++ ['\n'] := by
  cases line with
  | nil => exact absurd rfl h
  | cons c rest => rfl

theorem written_line {text : String} (h : '\n' ∉ text.toList) (depth : Nat) :
    written depth (.line text) = renderLine depth text.toList := by
  rw [written, List.splitOn_eq_singleton (by simpa using h), List.flatMap_singleton]

/-- Lines that are joined by newlines are written one below the other, each of them indented. -/
theorem written_lines {depth : Nat} {text : String} {first : List Char} {rest : List (List Char)}
    (htext : text.toList = first ++ rest.flatMap ('\n' :: ·))
    (h : ∀ line ∈ first :: rest, line ≠ [] ∧ '\n' ∉ line) :
    written depth (.line text) = indentation depth ++ first ++
      rest.flatMap (fun line => '\n' :: indentation depth ++ line) ++ ['\n'] := by
  rw [written, htext]
  clear htext
  induction rest generalizing first with
  | nil =>
    have hfirst := h first List.mem_cons_self
    rw [List.flatMap_nil, List.append_nil, List.splitOn_eq_singleton hfirst.2,
      List.flatMap_singleton, renderLine_of_ne_nil hfirst.1]
    simp
  | cons line others ih =>
    have hfirst := h first List.mem_cons_self
    rw [List.flatMap_cons, List.cons_append, List.splitOn_append_cons_self_of_not_mem hfirst.2,
      List.flatMap_cons, ih fun other hother => h other (List.mem_cons_of_mem _ hother),
      renderLine_of_ne_nil hfirst.1]
    simp

end BundleForge.Layout
