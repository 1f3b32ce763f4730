import Mathlib.Data.List.Lex
/-!
# Trials in the order of their ranks

A search that tries one possibility after the other, level within level, has a list of trials. A trial is
ranked by its positions at the levels, the outermost first, and ranks are compared lexicographically. Such
a list ascends, so the first trial that succeeds is the least of all that would.
-/

namespace BundleForge

/-- Positions at the levels of a search, the outermost first. -/
abbrev Rank := List Nat

/-- What is tried in turn, each with its rank and with what it leads to. -/
abbrev Trials (α : Type) := List (Rank × Option α)

namespace Trials

variable {ι α : Type}

/-- What the first successful trial leads to. -/
def first (trials : Trials α) : Option α := trials.findSome? Prod.snd

/-- Trials at one position of a level. -/
def within (position : Nat) (trials : Trials α) : Trials α :=
  trials.map fun trial => (position :: trial.1, trial.2)

/-- The trials of some items, one item after the other, which stand at successive positions. -/
def numbered (trials : ι → Trials α) (start : Nat) : List ι → Trials α
  | [] => []
  | item :: rest => within start (trials item) ++ numbered trials (start + 1) rest

def Ascending (trials : Trials α) : Prop :=
  trials.Pairwise fun earlier later => earlier.1 < later.1

theorem mem_within {position : Nat} {trials : Trials α} {rank : Rank} {result : Option α} :
    (rank, result) ∈ within position trials ↔
      ∃ rest, rank = position :: rest ∧ (rest, result) ∈ trials := by
  simp only [within, List.mem_map, Prod.mk.injEq, Prod.exists]
  constructor
  · rintro ⟨rest, other, hmem, rfl, rfl⟩
    exact ⟨rest, rfl, hmem⟩
  · rintro ⟨rest, rfl, hmem⟩
    exact ⟨rest, result, hmem, rfl, rfl⟩

theorem mem_numbered {trials : ι → Trials α} {start : Nat} {items : List ι} {rank : Rank}
    {result : Option α} :
    (rank, result) ∈ numbered trials start items ↔
      ∃ position item rest, items[position]? = some item ∧ rank = (start + position) :: rest ∧
        (rest, result) ∈ trials item := by
  induction items generalizing start with
  | nil => simp [numbered]
  | cons item others ih =>
    rw [numbered, List.mem_append, mem_within, ih]
    constructor
    · rintro (⟨rest, rfl, hmem⟩ | ⟨position, other, rest, hother, rfl, hmem⟩)
      · exact ⟨0, item, rest, rfl, rfl, hmem⟩
      · refine ⟨position + 1, other, rest, hother, ?_, hmem⟩
        rw [Nat.add_assoc, Nat.add_comm 1]
    · rintro ⟨position, other, rest, hother, rfl, hmem⟩
      cases position with
      | zero =>
        obtain rfl := Option.some.inj hother
        exact Or.inl ⟨rest, rfl, hmem⟩
      | succ position =>
        refine Or.inr ⟨position, other, rest, hother, ?_, hmem⟩
        rw [Nat.add_assoc, Nat.add_comm 1]

theorem ascending_within (position : Nat) {trials : Trials α} (h : Ascending trials) :
    Ascending (within position trials) := by
  rw [Ascending, within, List.pairwise_map]
  apply h.imp
  intro earlier later hlt
  exact List.cons_lt_cons_iff.2 (Or.inr ⟨rfl, hlt⟩)

theorem ascending_numbered {trials : ι → Trials α} {items : List ι}
    (h : ∀ item ∈ items, Ascending (trials item)) (start : Nat) :
    Ascending (numbered trials start items) := by
  induction items generalizing start with
  | nil => exact List.Pairwise.nil
  | cons item others ih =>
    rw [List.forall_mem_cons] at h
    rw [numbered, Ascending, List.pairwise_append]
    refine ⟨ascending_within start h.1, ih h.2 (start + 1), ?_⟩
    -- All of the other items stand at later positions.
    rintro ⟨rank, result⟩ hearlier ⟨rank', result'⟩ hlater
    obtain ⟨rest, rfl, -⟩ := mem_within.1 hearlier
    obtain ⟨position, -, rest', -, rfl, -⟩ := mem_numbered.1 hlater
    apply List.cons_lt_cons_iff.2
    left
    omega

theorem first_within (position : Nat) (trials : Trials α) :
    first (within position trials) = first trials := by
  rw [first, within, List.findSome?_map]
  rfl

theorem first_append (trials others : Trials α) :
    first (trials ++ others) = (first trials).or (first others) := by
  rw [first, List.findSome?_append]
  rfl

theorem first_numbered (trials : ι → Trials α) (start : Nat) (items : List ι) :
    first (numbered trials start items) = items.findSome? fun item => first (trials item) := by
  induction items generalizing start with
  | nil => rfl
  | cons item others ih =>
    rw [numbered, first_append, first_within, ih, List.findSome?_cons]
    cases first (trials item) with
    | none => rfl
    | some result => rfl

theorem first_numbered_pair (trials : ι → Trials α) (start : Nat) (item other : ι) :
    first (numbered trials start [item, other]) = (first (trials item)).or (first (trials other)) := by
  rw [numbered, numbered, numbered, List.append_nil, first_append, first_within, first_within]

theorem first_eq_none_iff {trials : Trials α} :
    first trials = none ↔ ∀ rank result, (rank, some result) ∉ trials := by
  rw [first, List.findSome?_eq_none_iff]
  constructor
  · intro h rank result hmem
    have hnone := h _ hmem
    simp at hnone
  · rintro h ⟨rank, result⟩ hmem
    cases result with
    | none => rfl
    | some result => exact absurd hmem (h rank result)

theorem first_eq_some_iff {trials : Trials α} (h : Ascending trials) {result : α} :
    first trials = some result ↔
      ∃ rank, (rank, some result) ∈ trials ∧
        ∀ other result', (other, some result') ∈ trials → rank ≤ other := by
  constructor
  · intro hfirst
    obtain ⟨before, ⟨rank, _⟩, after, rfl, rfl, hbefore⟩ := List.findSome?_eq_some_iff.1 hfirst
    refine ⟨rank, by simp, ?_⟩
    intro other result' hother
    rcases List.mem_append.1 hother with hmem | hmem
    · have hnone := hbefore _ hmem
      simp at hnone
    · rcases List.mem_cons.1 hmem with hsame | hafter
      · exact le_of_eq (Prod.mk.inj hsame).1.symm
      · rw [Ascending, List.pairwise_append, List.pairwise_cons] at h
        exact le_of_lt (h.2.1.1 _ hafter)
  · rintro ⟨rank, hmem, hleast⟩
    obtain ⟨before, after, rfl⟩ := List.append_of_mem hmem
    apply List.findSome?_eq_some_iff.2
    refine ⟨before, (rank, some result), after, rfl, rfl, ?_⟩
    rintro ⟨other, result'⟩ hother
    cases result' with
    | none => rfl
    | some result' =>
      rw [Ascending, List.pairwise_append] at h
      have hlt := h.2.2 _ hother _ List.mem_cons_self
      exact absurd hlt (not_lt_of_ge (hleast other result' (List.mem_append_left _ hother)))

end Trials

end BundleForge
