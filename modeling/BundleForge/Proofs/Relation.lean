import Mathlib.Data.List.Basic
import Mathlib.Logic.Relation
/-!
# Ways that avoid places

A walk that remembers where it has been never leaves from the same place twice. Nothing is lost by that:
of a way that comes through its first place again, what follows the last visit there leads to the same
end.
-/

namespace BundleForge

open Relation (ReflTransGen)

variable {α : Type*} {r : α → α → Prop} {places : List α} {a b target : α}

/-- A step that leaves from none of some places. -/
def Avoiding (places : List α) (r : α → α → Prop) (a b : α) : Prop := a ∉ places ∧ r a b

theorem Avoiding.cons (h : Avoiding places r a b) {place : α} (hne : a ≠ place) :
    Avoiding (place :: places) r a b := by
  refine ⟨?_, h.2⟩
  rw [List.mem_cons, not_or]
  exact ⟨hne, h.1⟩

theorem reflTransGen_of_avoiding (h : ReflTransGen (Avoiding places r) a target) :
    ReflTransGen r a target :=
  ReflTransGen.mono (fun _ _ hstep => hstep.2) _ _ h

theorem avoiding_nil (h : r a b) : Avoiding [] r a b := ⟨List.not_mem_nil, h⟩

/-- A way either never leaves from a place, or can be entered from there after its last visit. -/
private theorem avoids_or_leaves (place : α) (h : ReflTransGen (Avoiding places r) b target) :
    ReflTransGen (Avoiding (place :: places) r) b target ∨
      ∃ next, r place next ∧ ReflTransGen (Avoiding (place :: places) r) next target := by
  induction h using ReflTransGen.head_induction_on with
  | refl => exact Or.inl .refl
  | @head b next hstep _ ih =>
    rcases ih with hrest | hleaves
    · by_cases hplace : b = place
      · exact Or.inr ⟨next, hplace ▸ hstep.2, hrest⟩
      · exact Or.inl (.head (hstep.cons hplace) hrest)
    · exact Or.inr hleaves

theorem exists_last_visit (hstep : r a b) (h : ReflTransGen (Avoiding places r) b target) :
    ∃ next, r a next ∧ ReflTransGen (Avoiding (a :: places) r) next target :=
  (avoids_or_leaves a h).elim (fun hrest => ⟨b, hstep, hrest⟩) id

end BundleForge
