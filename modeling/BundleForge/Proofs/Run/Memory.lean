import BundleForge.Proofs.Run.Turns
/-!
# What the memory sink holds

A committed source is kept under the name of its type. That name is taken from then on, so no later pass
of the run replaces it.
-/

namespace BundleForge

variable {plan : Plan}

theorem Turn.Committed.sources {turn : Turn MemorySink} (hcommitted : turn.Committed plan) :
    (turn.pass plan).world.sink.sources =
      turn.world.sink.sources.insert turn.claim.qualifiedName (turn.source plan) := by
  obtain ⟨claim, granted, path, hclaim, hcommit⟩ := hcommitted
  have hsink : granted.commit claim (turn.source plan) = (turn.pass plan).world.sink :=
    (Prod.mk.inj (Prod.mk.inj hcommit).2).2
  obtain ⟨rfl, -⟩ := MemorySink.register.granted trivial hclaim
  simp only [Sink.claim, MemorySink.claim] at hclaim
  split at hclaim
  · simp at hclaim
  · obtain ⟨-, rfl⟩ := Prod.mk.inj hclaim
    rw [← hsink]
    rfl

theorem Turn.Committed.get? {turn : Turn MemorySink} (hcommitted : turn.Committed plan) :
    MemorySink.register.Taken (turn.pass plan).world.sink turn.claim.qualifiedName ∧
      (turn.pass plan).world.sink.get? turn.claim.qualifiedName = some (turn.source plan) := by
  obtain ⟨-, -, htaken⟩ := hcommitted.granted MemorySink.register trivial
  refine ⟨(htaken _).2 (Or.inr rfl), ?_⟩
  rw [MemorySink.get?, hcommitted.sources]
  exact OrderedMap.get?_insert_self _ _ _

theorem Turn.get?_of_taken {turn : Turn MemorySink}
    (hfine : turn.Succeeds plan) {name source : String}
    (htaken : MemorySink.register.Taken turn.world.sink name) (hget : turn.world.sink.get? name = some source) :
    MemorySink.register.Taken (turn.pass plan).world.sink name ∧
      (turn.pass plan).world.sink.get? name = some source := by
  rcases Turn.committed_or_skipped hfine with hcommitted | hskipped
  · obtain ⟨hfree, -, hnext⟩ := hcommitted.granted MemorySink.register trivial
    refine ⟨(hnext name).2 (Or.inl htaken), ?_⟩
    have hne : name ≠ turn.claim.qualifiedName := by
      rintro rfl
      exact hfree htaken
    rw [MemorySink.get?, hcommitted.sources, OrderedMap.get?_insert_of_ne _ _ hne]
    exact hget
  · rw [(hskipped.passed_over MemorySink.register trivial).2]
    exact ⟨htaken, hget⟩

namespace Run

variable {world : World MemorySink} {passes : List (Bundle × Option String)}

theorem get?_after_of_taken {name source : String}
    (hfine : ∀ turn ∈ turns plan world passes, turn.Succeeds plan)
    (htaken : MemorySink.register.Taken world.sink name) (hget : world.sink.get? name = some source) :
    (after plan world passes).sink.get? name = some source := by
  induction passes generalizing world with
  | nil => exact hget
  | cons pass rest ih =>
    obtain ⟨hfirst, hrest⟩ := List.forall_mem_cons.1 hfine
    obtain ⟨hnext, hkept⟩ := Turn.get?_of_taken hfirst htaken hget
    exact ih hrest hnext hkept

theorem get?_after_of_committed
    (hfine : ∀ turn ∈ turns plan world passes, turn.Succeeds plan)
    {turn : Turn MemorySink} (hturn : turn ∈ turns plan world passes)
    (hcommitted : turn.Committed plan) :
    (after plan world passes).sink.get? turn.claim.qualifiedName = some (turn.source plan) := by
  induction passes generalizing world with
  | nil => exact absurd hturn List.not_mem_nil
  | cons pass rest ih =>
    have hrest := (List.forall_mem_cons.1 hfine).2
    rcases List.mem_cons.1 hturn with rfl | hlater
    · obtain ⟨htaken, hget⟩ := hcommitted.get?
      have hheld := get?_after_of_taken hrest htaken hget
      exact hheld
    · exact ih hrest hlater

end Run

end BundleForge
