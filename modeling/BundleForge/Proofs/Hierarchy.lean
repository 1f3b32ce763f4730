import BundleForge.Hierarchy
import BundleForge.Proofs.OrderedMap
import Mathlib.Logic.Relation
/-!
# The walk over supertypes

`walk` enters every type that can be reached from where it starts, each of them once, and never the
start itself. What carries the induction is that the supertypes of an entered type are entered or
pending at every moment.
-/

namespace BundleForge.Hierarchy

variable {h : Hierarchy} {start : TypeName}

/-- A known type and one of its direct supertypes. -/
def Below (h : Hierarchy) (ty super : TypeName) : Prop :=
  ∃ supertypes, h.supertypes? ty = some supertypes ∧ super ∈ supertypes

/-! ### One step of the walk -/

section

variable {entered pending : List TypeName} {ty : TypeName}

theorem walk_nil : h.walk start entered [] = entered := by
  rw [walk]

theorem walk_cons_of_skip (hskip : ty = start ∨ ty ∈ entered) :
    h.walk start entered (ty :: pending) = h.walk start entered pending := by
  rw [walk, dif_pos hskip]

theorem walk_cons_of_known (hnew : ¬ (ty = start ∨ ty ∈ entered)) {supertypes : List TypeName}
    (hty : h.supertypes? ty = some supertypes) :
    h.walk start entered (ty :: pending) = h.walk start (entered ++ [ty]) (supertypes ++ pending) := by
  rw [walk, dif_neg hnew]
  split <;> simp_all

theorem walk_cons_of_unknown (hnew : ¬ (ty = start ∨ ty ∈ entered)) (hty : h.supertypes? ty = none) :
    h.walk start entered (ty :: pending) = h.walk start (entered ++ [ty]) pending := by
  rw [walk, dif_neg hnew]
  split <;> simp_all

end

/-! ### What a walk enters -/

/-- A walk that is under way: what is entered does not repeat, and what is above it is entered or
pending. -/
structure Underway (h : Hierarchy) (start : TypeName) (entered pending : List TypeName) : Prop where
  nodup : entered.Nodup
  start_not_mem : start ∉ entered
  above : ∀ ty ∈ entered, ∀ super, h.Below ty super →
    super = start ∨ super ∈ entered ∨ super ∈ pending

theorem Underway.skip {entered pending : List TypeName} {ty : TypeName}
    (hwalk : Underway h start entered (ty :: pending)) (hskip : ty = start ∨ ty ∈ entered) :
    Underway h start entered pending where
  nodup := hwalk.nodup
  start_not_mem := hwalk.start_not_mem
  above other hother super hbelow := by
    rcases hwalk.above other hother super hbelow with hstart | hentered | hpending
    · exact Or.inl hstart
    · exact Or.inr (Or.inl hentered)
    · rcases List.mem_cons.1 hpending with rfl | hrest
      · exact hskip.imp id Or.inl
      · exact Or.inr (Or.inr hrest)

theorem Underway.enter {entered pending pending' : List TypeName} {ty : TypeName}
    (hwalk : Underway h start entered (ty :: pending)) (hnew : ¬ (ty = start ∨ ty ∈ entered))
    (hpending : pending ⊆ pending') (habove : ∀ super, h.Below ty super → super ∈ pending') :
    Underway h start (entered ++ [ty]) pending' where
  nodup := by
    rw [List.nodup_append]
    refine ⟨hwalk.nodup, List.nodup_singleton _, fun a ha b hb hab => hnew (Or.inr ?_)⟩
    rwa [← List.mem_singleton.1 hb, ← hab]
  start_not_mem hmem := by
    rcases List.mem_append.1 hmem with hentered | hty
    · exact hwalk.start_not_mem hentered
    · exact hnew (Or.inl (List.mem_singleton.1 hty).symm)
  above other hother super hbelow := by
    rcases List.mem_append.1 hother with hentered | hty
    · rcases hwalk.above other hentered super hbelow with hstart | hmem | hmem
      · exact Or.inl hstart
      · exact Or.inr (Or.inl (List.mem_append_left _ hmem))
      · rcases List.mem_cons.1 hmem with rfl | hrest
        · exact Or.inr (Or.inl (List.mem_append_right _ List.mem_cons_self))
        · exact Or.inr (Or.inr (hpending hrest))
    · rw [List.mem_singleton.1 hty] at hbelow
      exact Or.inr (Or.inr (habove super hbelow))

/-- A walk ends with nothing pending, and has by then entered what was pending before. -/
theorem Underway.walk {entered pending : List TypeName} (hwalk : Underway h start entered pending) :
    Underway h start (h.walk start entered pending) [] ∧
    entered ⊆ h.walk start entered pending ∧
    ∀ ty ∈ pending, ty = start ∨ ty ∈ h.walk start entered pending := by
  induction entered, pending using walk.induct h start with
  | case1 entered =>
    rw [walk_nil]
    exact ⟨hwalk, List.Subset.refl _, fun _ hmem => absurd hmem List.not_mem_nil⟩
  | case2 entered ty pending hskip ih =>
    rw [walk_cons_of_skip hskip]
    obtain ⟨hdone, hsubset, hpending⟩ := ih (hwalk.skip hskip)
    refine ⟨hdone, hsubset, List.forall_mem_cons.2 ⟨?_, hpending⟩⟩
    exact hskip.imp id fun hmem => hsubset hmem
  | case3 entered ty pending hnew supertypes hty ih =>
    have habove : ∀ super, h.Below ty super → super ∈ supertypes ++ pending := by
      rintro super ⟨others, hothers, hmem⟩
      rw [hty] at hothers
      obtain rfl := Option.some.inj hothers
      exact List.mem_append_left _ hmem
    obtain ⟨hdone, hsubset, hpending⟩ :=
      ih (hwalk.enter hnew (List.subset_append_right _ _) habove)
    rw [walk_cons_of_known hnew hty]
    refine ⟨hdone, fun _ hmem => hsubset (List.mem_append_left _ hmem),
      List.forall_mem_cons.2 ⟨Or.inr ?_, fun other hother => ?_⟩⟩
    · exact hsubset (List.mem_append_right _ List.mem_cons_self)
    · exact hpending other (List.mem_append_right _ hother)
  | case4 entered ty pending hnew hty ih =>
    have habove : ∀ super, h.Below ty super → super ∈ pending := by
      rintro super ⟨others, hothers, -⟩
      rw [hty] at hothers
      simp at hothers
    obtain ⟨hdone, hsubset, hpending⟩ := ih (hwalk.enter hnew (List.Subset.refl _) habove)
    rw [walk_cons_of_unknown hnew hty]
    refine ⟨hdone, fun _ hmem => hsubset (List.mem_append_left _ hmem),
      List.forall_mem_cons.2 ⟨Or.inr ?_, hpending⟩⟩
    exact hsubset (List.mem_append_right _ List.mem_cons_self)

theorem underway_start (h : Hierarchy) (start : TypeName) (pending : List TypeName) :
    Underway h start [] pending where
  nodup := List.nodup_nil
  start_not_mem := List.not_mem_nil
  above _ hmem := absurd hmem List.not_mem_nil

theorem nodup_parents {parents : List TypeName} (hparents : h.parents? start = some parents) :
    parents.Nodup ∧ start ∉ parents := by
  obtain ⟨supertypes, -, rfl⟩ := Option.map_eq_some_iff.1 hparents
  obtain ⟨hdone, -, -⟩ := (underway_start h start supertypes).walk
  exact ⟨hdone.nodup, hdone.start_not_mem⟩

/-- Every type above another one is among its parents. -/
theorem mem_parents_of_below {parents : List TypeName} (hparents : h.parents? start = some parents)
    {ty : TypeName} (habove : Relation.TransGen h.Below start ty) : ty = start ∨ ty ∈ parents := by
  obtain ⟨supertypes, hsupertypes, rfl⟩ := Option.map_eq_some_iff.1 hparents
  obtain ⟨hdone, -, hpending⟩ := (underway_start h start supertypes).walk
  have hdirect : ∀ {super}, h.Below start super →
      super = start ∨ super ∈ h.walk start [] supertypes := by
    rintro super ⟨others, hothers, hmem⟩
    rw [hsupertypes] at hothers
    obtain rfl := Option.some.inj hothers
    exact hpending super hmem
  -- On the way up each type was entered, since the walk keeps the supertypes of all it has entered.
  induction habove with
  | single hbelow => exact hdirect hbelow
  | tail _ hbelow ih =>
    rcases ih with rfl | hmem
    · exact hdirect hbelow
    · rcases hdone.above _ hmem _ hbelow with hstart | hentered | hnone
      · exact Or.inl hstart
      · exact Or.inr hentered
      · exact absurd hnone List.not_mem_nil

end BundleForge.Hierarchy
