import BundleForge.Proofs.Hierarchy.Order
/-!
# Supertypes in preorder

The walk over supertypes keeps what is pending on a stack: a type may lie there more than once, and is passed
over when it comes up again. `Enters` is the walk as a recursion, without a stack. Both enter the same types
in the same order, because what is above an entered type is done with before the rest of the stack comes up.
Every type on the stack was put there with the supertypes of one type, and no type is entered twice, so the
walk takes one step for each supertype of the types it enters.
-/

namespace BundleForge.Hierarchy

open Relation (TransGen)

variable {h : Hierarchy} {start ty : TypeName} {entered pending first rest after : List TypeName}

/-! ### The recursive walk -/

/-- The walk through some types from the left: the start and what is entered already are passed over, and
after a type is entered the walk goes through its supertypes before it goes on. A type that is not known has
none. -/
inductive Enters (h : Hierarchy) (start : TypeName) :
    List TypeName → List TypeName → List TypeName → Prop
  | nil (entered : List TypeName) : Enters h start entered [] entered
  | skip {entered rest after : List TypeName} {ty : TypeName} (known : ty = start ∨ ty ∈ entered)
      (go : Enters h start entered rest after) : Enters h start entered (ty :: rest) after
  | enter {entered rest between after : List TypeName} {ty : TypeName}
      (new : ¬ (ty = start ∨ ty ∈ entered))
      (above : Enters h start (entered ++ [ty]) ((h.supertypes? ty).getD []) between)
      (go : Enters h start between rest after) : Enters h start entered (ty :: rest) after

theorem enters_append_iff :
    Enters h start entered (first ++ rest) after ↔
      ∃ between, Enters h start entered first between ∧ Enters h start between rest after := by
  induction first generalizing entered with
  | nil =>
    constructor
    · exact fun hrest => ⟨entered, .nil entered, hrest⟩
    · rintro ⟨between, hnil, hrest⟩
      cases hnil
      exact hrest
  | cons ty others ih =>
    constructor
    · intro hall
      cases hall with
      | skip hskip hgo =>
        obtain ⟨between, hothers, hrest⟩ := ih.1 hgo
        exact ⟨between, .skip hskip hothers, hrest⟩
      | enter hnew habove hgo =>
        obtain ⟨between, hothers, hrest⟩ := ih.1 hgo
        exact ⟨between, .enter hnew habove hothers, hrest⟩
    · rintro ⟨between, hfirst, hrest⟩
      cases hfirst with
      | skip hskip hgo => exact .skip hskip (ih.2 ⟨between, hgo, hrest⟩)
      | enter hnew habove hgo => exact .enter hnew habove (ih.2 ⟨between, hgo, hrest⟩)

theorem enters_walk (h : Hierarchy) (start : TypeName) (entered pending : List TypeName) :
    Enters h start entered pending (h.walk start entered pending) := by
  induction entered, pending using walk.induct h start with
  | case1 entered =>
    rw [walk_nil]
    exact .nil entered
  | case2 entered ty pending hskip ih =>
    rw [walk_cons_of_skip hskip]
    exact .skip hskip ih
  | case3 entered ty pending hnew supertypes hty ih =>
    rw [walk_cons_of_known hnew hty]
    obtain ⟨between, habove, hgo⟩ := enters_append_iff.1 ih
    exact .enter hnew (by rwa [hty, Option.getD_some]) hgo
  | case4 entered ty pending hnew hty ih =>
    rw [walk_cons_of_unknown hnew hty]
    refine .enter hnew ?_ ih
    rw [hty, Option.getD_none]
    exact .nil _

theorem Enters.eq_walk (hwalk : Enters h start entered pending after) :
    after = h.walk start entered pending := by
  induction hwalk with
  | nil entered => rw [walk_nil]
  | skip hskip _ ih => rw [walk_cons_of_skip hskip, ih]
  | @enter entered rest between after ty hnew _ _ ihabove ihgo =>
    cases hty : h.supertypes? ty with
    | some supertypes =>
      rw [hty, Option.getD_some] at ihabove
      rw [walk_cons_of_known hnew hty, walk_append, ← ihabove, ihgo]
    | none =>
      rw [hty, Option.getD_none, walk_nil] at ihabove
      rw [walk_cons_of_unknown hnew hty, ← ihabove, ihgo]

theorem enters_iff : Enters h start entered pending after ↔ h.walk start entered pending = after :=
  ⟨fun hwalk => hwalk.eq_walk.symm, fun hwalk => hwalk ▸ enters_walk h start entered pending⟩

/-! ### The steps of a walk -/

/-- How many types are put on the stack when some types are entered. -/
def pushes (h : Hierarchy) (types : List TypeName) : Nat :=
  (types.flatMap fun ty => (h.supertypes? ty).getD []).length

theorem pushes_cons (h : Hierarchy) (ty : TypeName) (types : List TypeName) :
    h.pushes (ty :: types) = ((h.supertypes? ty).getD []).length + h.pushes types := by
  rw [pushes, List.flatMap_cons, List.length_append, pushes]

theorem walkWithin_cons_of_skip (hskip : ty = start ∨ ty ∈ entered) (steps : Nat) :
    h.walkWithin start (steps + 1) entered (ty :: pending) = h.walkWithin start steps entered pending := by
  rw [walkWithin, if_pos hskip]

theorem walkWithin_cons_of_new (hnew : ¬ (ty = start ∨ ty ∈ entered)) (steps : Nat) :
    h.walkWithin start (steps + 1) entered (ty :: pending) =
      h.walkWithin start steps (entered ++ [ty]) ((h.supertypes? ty).getD [] ++ pending) := by
  rw [walkWithin, if_neg hnew]

/-- A walk takes a step for each type that is pending and for each that it puts on the stack. -/
theorem exists_walkWithin (h : Hierarchy) (start : TypeName) (entered pending : List TypeName) :
    ∃ added, h.walk start entered pending = entered ++ added ∧
      h.walkWithin start (pending.length + h.pushes added) entered pending = some (entered ++ added) := by
  induction entered, pending using walk.induct h start with
  | case1 entered =>
    refine ⟨[], ?_, ?_⟩
    · rw [walk_nil, List.append_nil]
    · rw [walkWithin, List.append_nil]
  | case2 entered ty pending hskip ih =>
    obtain ⟨added, hwalk, hwithin⟩ := ih
    refine ⟨added, by rw [walk_cons_of_skip hskip, hwalk], ?_⟩
    rw [List.length_cons, Nat.add_right_comm, walkWithin_cons_of_skip hskip, hwithin]
  | case3 entered ty pending hnew supertypes hty ih =>
    obtain ⟨added, hwalk, hwithin⟩ := ih
    rw [List.append_assoc] at hwalk hwithin
    refine ⟨ty :: added, by rw [walk_cons_of_known hnew hty, hwalk, List.singleton_append], ?_⟩
    have hsteps : (ty :: pending).length + h.pushes (ty :: added) =
        (supertypes ++ pending).length + h.pushes added + 1 := by
      rw [pushes_cons, hty, Option.getD_some, List.length_cons, List.length_append]
      omega
    rw [hsteps, walkWithin_cons_of_new hnew, hty, Option.getD_some, hwithin, List.singleton_append]
  | case4 entered ty pending hnew hty ih =>
    obtain ⟨added, hwalk, hwithin⟩ := ih
    rw [List.append_assoc] at hwalk hwithin
    refine ⟨ty :: added, by rw [walk_cons_of_unknown hnew hty, hwalk, List.singleton_append], ?_⟩
    have hsteps : (ty :: pending).length + h.pushes (ty :: added) =
        pending.length + h.pushes added + 1 := by
      rw [pushes_cons, hty, Option.getD_none, List.length_cons, List.length_nil]
      omega
    rw [hsteps, walkWithin_cons_of_new hnew, hty, Option.getD_none, List.nil_append, hwithin,
      List.singleton_append]

/-! ### The closure -/

/-- The parents of a type are all that is above it, but the type itself is not among them. -/
theorem mem_parents_iff {parents : List TypeName} (hparents : h.parents? start = some parents) :
    ty ∈ parents ↔ ty ≠ start ∧ TransGen h.Below start ty := by
  constructor
  · intro hmem
    obtain ⟨supertypes, hsupertypes, rfl⟩ := Option.map_eq_some_iff.1 hparents
    obtain ⟨hne, hmet⟩ := mem_walk_iff.1 hmem
    obtain ⟨origin, horigin, hway⟩ := hmet.atOrAbove
    exact ⟨hne, .head' ⟨supertypes, hsupertypes, horigin⟩ hway⟩
  · rintro ⟨hne, habove⟩
    exact (mem_parents_of_below hparents habove).resolve_left hne

/-- The parents of a type with some supertypes. -/
structure Closure (h : Hierarchy) (ty : TypeName) (supertypes parents : List TypeName) : Prop where
  nodup : parents.Nodup
  mem_iff : ∀ other, other ∈ parents ↔ other ≠ ty ∧ TransGen h.Below ty other
  /-- They stand in the order in which the recursive walk enters them. -/
  preorder : ∀ entered, Enters h ty [] supertypes entered ↔ entered = parents
  /-- The walk with the stack ends after so many steps. -/
  ends : h.walkWithin ty (supertypes.length + h.pushes parents) [] supertypes = some parents

/-- The parents of a known type are found, whatever circles the supertypes form. -/
theorem exists_closure {supertypes : List TypeName} (hknown : h.supertypes? ty = some supertypes) :
    ∃ parents, h.parents? ty = some parents ∧ Closure h ty supertypes parents := by
  have hparents : h.parents? ty = some (h.walk ty [] supertypes) := by
    rw [parents?, hknown, Option.map_some]
  refine ⟨_, hparents, ?_⟩
  constructor
  case nodup => exact (nodup_parents hparents).1
  case mem_iff => exact fun other => mem_parents_iff hparents
  case preorder => exact fun entered => enters_iff.trans eq_comm
  case ends =>
    obtain ⟨added, hwalk, hwithin⟩ := exists_walkWithin h ty [] supertypes
    rw [List.nil_append] at hwalk hwithin
    rw [hwalk, hwithin]

/-- Types in circles, one of them through the type that is asked for, with a supertype nobody declares. -/
def circles : Hierarchy :=
  Hierarchy.builtin
    |>.declare ⟨"crate::A"⟩ [⟨"crate::B"⟩, ⟨"crate::C"⟩, ⟨"crate::B"⟩] none
    |>.declare ⟨"crate::B"⟩ [⟨"crate::D"⟩, ⟨"crate::A"⟩] none
    |>.declare ⟨"crate::C"⟩ [⟨"crate::D"⟩, ⟨"crate::Elsewhere"⟩] none
    |>.declare ⟨"crate::D"⟩ [⟨"crate::C"⟩, ⟨"crate::D"⟩] none

theorem exists_closure_circles :
    circles.supertypes? ⟨"crate::A"⟩ = some [⟨"crate::B"⟩, ⟨"crate::C"⟩, ⟨"crate::B"⟩] ∧
      circles.parents? ⟨"crate::A"⟩ =
        some [⟨"crate::B"⟩, ⟨"crate::D"⟩, ⟨"crate::C"⟩, ⟨"crate::Elsewhere"⟩] ∧
      Closure circles ⟨"crate::A"⟩ [⟨"crate::B"⟩, ⟨"crate::C"⟩, ⟨"crate::B"⟩]
        [⟨"crate::B"⟩, ⟨"crate::D"⟩, ⟨"crate::C"⟩, ⟨"crate::Elsewhere"⟩] := by
  have hknown : circles.supertypes? ⟨"crate::A"⟩ = some [⟨"crate::B"⟩, ⟨"crate::C"⟩, ⟨"crate::B"⟩] := by
    decide +kernel
  have hparents : circles.parents? ⟨"crate::A"⟩ =
      some [⟨"crate::B"⟩, ⟨"crate::D"⟩, ⟨"crate::C"⟩, ⟨"crate::Elsewhere"⟩] :=
    parents?_of_walkWithin 9 (by decide +kernel)
  obtain ⟨parents, hfound, hclosure⟩ := exists_closure hknown
  obtain rfl := Option.some.inj (hparents.symm.trans hfound)
  exact ⟨hknown, hparents, hclosure⟩

end BundleForge.Hierarchy
