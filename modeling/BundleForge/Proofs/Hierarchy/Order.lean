import BundleForge.Proofs.Hierarchy
import BundleForge.Proofs.Relation
/-!
# The order of a walk over supertypes

A walk over supertypes one after the other first enters all that it meets from the earlier ones, and then
adds what it meets from the later ones and has not entered yet. A type is met from another one by going
upwards, but not through the type that the walk is for.
-/

namespace BundleForge.Hierarchy

open Relation (ReflTransGen TransGen)

variable {h : Hierarchy} {start ty : TypeName} {entered pending first rest : List TypeName}

/-- A type is at or above one of some types, on a way that does not go through the start. -/
def Met (h : Hierarchy) (start : TypeName) (pending : List TypeName) (ty : TypeName) : Prop :=
  ∃ origin ∈ pending, ReflTransGen (Avoiding [start] h.Below) origin ty

theorem Met.mono {others : List TypeName} (hmet : h.Met start pending ty) (hsubset : pending ⊆ others) :
    h.Met start others ty := by
  obtain ⟨origin, hmem, hway⟩ := hmet
  exact ⟨origin, hsubset hmem, hway⟩

theorem met_of_mem (hmem : ty ∈ pending) : h.Met start pending ty := ⟨ty, hmem, .refl⟩

/-- A type is one of some types, or above one of them. -/
def AtOrAbove (h : Hierarchy) (types : List TypeName) (ty : TypeName) : Prop :=
  ∃ origin ∈ types, ReflTransGen h.Below origin ty

theorem Met.atOrAbove (hmet : h.Met start pending ty) : h.AtOrAbove pending ty := by
  obtain ⟨origin, hmem, hway⟩ := hmet
  exact ⟨origin, hmem, reflTransGen_of_avoiding hway⟩

theorem walk_append :
    h.walk start entered (first ++ rest) = h.walk start (h.walk start entered first) rest := by
  induction entered, first using walk.induct h start with
  | case1 entered => rw [List.nil_append, walk_nil]
  | case2 entered ty pending hskip ih =>
    rw [List.cons_append, walk_cons_of_skip hskip, walk_cons_of_skip hskip, ih]
  | case3 entered ty pending hnew supertypes hty ih =>
    rw [List.cons_append, walk_cons_of_known hnew hty, walk_cons_of_known hnew hty, ← ih, List.append_assoc]
  | case4 entered ty pending hnew hty ih =>
    rw [List.cons_append, walk_cons_of_unknown hnew hty, walk_cons_of_unknown hnew hty, ih]

theorem prefix_walk (h : Hierarchy) (start : TypeName) (entered pending : List TypeName) :
    entered <+: h.walk start entered pending := by
  induction entered, pending using walk.induct h start with
  | case1 entered => exact walk_nil ▸ List.prefix_refl entered
  | case2 entered ty pending hskip ih => rwa [walk_cons_of_skip hskip]
  | case3 entered ty pending hnew supertypes hty ih =>
    rw [walk_cons_of_known hnew hty]
    exact (List.prefix_append _ _).trans ih
  | case4 entered ty pending hnew hty ih =>
    rw [walk_cons_of_unknown hnew hty]
    exact (List.prefix_append _ _).trans ih

theorem met_of_mem_walk {other : TypeName} (hmem : other ∈ h.walk start entered pending) :
    other ∈ entered ∨ (other ≠ start ∧ h.Met start pending other) := by
  induction entered, pending using walk.induct h start with
  | case1 entered =>
    rw [walk_nil] at hmem
    exact Or.inl hmem
  | case2 entered ty pending hskip ih =>
    rw [walk_cons_of_skip hskip] at hmem
    exact (ih hmem).imp_right fun hmet => ⟨hmet.1, hmet.2.mono (List.subset_cons_self _ _)⟩
  | case3 entered ty pending hnew supertypes hty ih =>
    rw [walk_cons_of_known hnew hty] at hmem
    rcases ih hmem with hentered | ⟨hne, origin, horigin, hway⟩
    · rcases List.mem_append.1 hentered with hold | hlast
      · exact Or.inl hold
      · rw [List.mem_singleton.1 hlast]
        exact Or.inr ⟨fun hstart => hnew (Or.inl hstart), met_of_mem List.mem_cons_self⟩
    · refine Or.inr ⟨hne, ?_⟩
      rcases List.mem_append.1 horigin with hsuper | hpending
      · have hstep : Avoiding [start] h.Below ty origin :=
          ⟨fun hstart => hnew (Or.inl (List.mem_singleton.1 hstart)), supertypes, hty, hsuper⟩
        exact ⟨ty, List.mem_cons_self, .head hstep hway⟩
      · exact ⟨origin, List.mem_cons_of_mem _ hpending, hway⟩
  | case4 entered ty pending hnew hty ih =>
    rw [walk_cons_of_unknown hnew hty] at hmem
    rcases ih hmem with hentered | ⟨hne, hmet⟩
    · rcases List.mem_append.1 hentered with hold | hlast
      · exact Or.inl hold
      · rw [List.mem_singleton.1 hlast]
        exact Or.inr ⟨fun hstart => hnew (Or.inl hstart), met_of_mem List.mem_cons_self⟩
    · exact Or.inr ⟨hne, hmet.mono (List.subset_cons_self _ _)⟩

theorem mem_walk_iff : ty ∈ h.walk start [] pending ↔ ty ≠ start ∧ h.Met start pending ty := by
  constructor
  · exact fun hmem => (met_of_mem_walk hmem).resolve_left List.not_mem_nil
  · rintro ⟨hne, origin, horigin, hway⟩
    obtain ⟨hdone, -, hpending⟩ := (underway_start h start pending).walk
    refine Or.resolve_left ?_ hne
    clear hne
    -- All that is above an entered type is entered, and from the start no step of the way leaves.
    induction hway with
    | refl => exact hpending origin horigin
    | tail _ hstep ih =>
      rcases ih with hstart | hentered
      · exact absurd (List.mem_singleton.2 hstart) hstep.1
      · exact (hdone.above _ hentered _ hstep.2).imp_right fun hmem =>
          hmem.resolve_right List.not_mem_nil

/-- What a walk adds after the earlier supertypes is met from the later ones, and from them alone. -/
theorem exists_walk_append (h : Hierarchy) (start : TypeName) (first rest : List TypeName) :
    ∃ added, h.walk start [] (first ++ rest) = h.walk start [] first ++ added ∧
      ∀ ty ∈ added, h.Met start rest ty ∧ ¬ h.Met start first ty := by
  obtain ⟨added, hadded⟩ := prefix_walk h start (h.walk start [] first) rest
  rw [← walk_append] at hadded
  refine ⟨added, hadded.symm, fun ty hmem => ?_⟩
  obtain ⟨hdone, -, -⟩ := (underway_start h start (first ++ rest)).walk
  have hnew : ty ∉ h.walk start [] first := by
    have hnodup := hdone.nodup
    rw [← hadded, List.nodup_append] at hnodup
    exact fun hold => hnodup.2.2 ty hold ty hmem rfl
  have hwalk : ty ∈ h.walk start (h.walk start [] first) rest := by
    rw [← walk_append, ← hadded]
    exact List.mem_append_right _ hmem
  obtain ⟨hne, hmet⟩ := (met_of_mem_walk hwalk).resolve_left hnew
  exact ⟨hmet, fun hfirst => hnew (mem_walk_iff.2 ⟨hne, hfirst⟩)⟩

/-- The parents that a type has through its later supertypes alone follow those that it has through the
earlier ones. -/
theorem exists_parents_append (hsupertypes : h.supertypes? start = some (first ++ rest)) :
    ∃ added, h.parents? start = some (h.walk start [] first ++ added) ∧
      ∀ ty, ty ∈ added ↔ ty ≠ start ∧ h.AtOrAbove rest ty ∧ ¬ h.Met start first ty := by
  obtain ⟨added, hadded, hnew⟩ := exists_walk_append h start first rest
  have hparents : h.parents? start = some (h.walk start [] first ++ added) := by
    rw [parents?, hsupertypes, Option.map_some, hadded]
  refine ⟨added, hparents, fun ty => ⟨fun hmem => ?_, ?_⟩⟩
  · have hne : ty ≠ start := by
      rintro rfl
      exact (nodup_parents hparents).2 (List.mem_append_right _ hmem)
    exact ⟨hne, (hnew ty hmem).1.atOrAbove, (hnew ty hmem).2⟩
  · rintro ⟨hne, ⟨origin, horigin, hway⟩, hnot⟩
    have hdirect : h.Below start origin := ⟨_, hsupertypes, List.mem_append_right _ horigin⟩
    have hparent := (mem_parents_of_below hparents (.head' hdirect hway)).resolve_left hne
    exact (List.mem_append.1 hparent).resolve_left fun hfirst => hnot (mem_walk_iff.1 hfirst).2

/-! ### Walks of so many steps -/

/-- The walk with a limit for its steps, which can be evaluated. There is no answer if it takes more. -/
def walkWithin (h : Hierarchy) (start : TypeName) : Nat → List TypeName → List TypeName → Option (List TypeName)
  | _, entered, [] => some entered
  | 0, _, _ :: _ => none
  | steps + 1, entered, ty :: pending =>
    if ty = start ∨ ty ∈ entered then h.walkWithin start steps entered pending
    else h.walkWithin start steps (entered ++ [ty]) ((h.supertypes? ty).getD [] ++ pending)

theorem walk_eq_of_walkWithin {steps : Nat} {found : List TypeName}
    (hfound : h.walkWithin start steps entered pending = some found) : h.walk start entered pending = found := by
  induction steps generalizing entered pending with
  | zero =>
    cases pending with
    | nil => rw [walk_nil, Option.some.inj hfound]
    | cons ty pending => exact absurd hfound (Option.some_ne_none found).symm
  | succ steps ih =>
    cases pending with
    | nil => rw [walk_nil, Option.some.inj hfound]
    | cons ty pending =>
      rw [walkWithin] at hfound
      split at hfound
      · rename_i hskip
        rw [walk_cons_of_skip hskip, ih hfound]
      · rename_i hnew
        cases hty : h.supertypes? ty with
        | some supertypes =>
          rw [hty, Option.getD_some] at hfound
          rw [walk_cons_of_known hnew hty, ih hfound]
        | none =>
          rw [hty, Option.getD_none, List.nil_append] at hfound
          rw [walk_cons_of_unknown hnew hty, ih hfound]

theorem parents?_of_walkWithin (steps : Nat) {parents : List TypeName}
    (hparents : (h.supertypes? start).bind (h.walkWithin start steps []) = some parents) :
    h.parents? start = some parents := by
  obtain ⟨supertypes, hsupertypes, hwalk⟩ := Option.bind_eq_some_iff.1 hparents
  rw [parents?, hsupertypes, Option.map_some, walk_eq_of_walkWithin hwalk]

end BundleForge.Hierarchy
