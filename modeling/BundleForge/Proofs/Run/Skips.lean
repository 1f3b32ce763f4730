import BundleForge.Proofs.Run.Memory
import BundleForge.Proofs.Run.Requests
/-!
# What a skipped pass says about the passes before it

The first pass on a sink that asks for a type becomes its owner, and keeps it whether it goes on to generate
the type or fails. So a later pass is skipped exactly if its type has an owner of the same name, and that the
type was generated by then means that the owner did not fail.
-/

namespace BundleForge

section

variable {σ κ : Type} [Sink σ] [DecidableEq κ] (register : Sink.Register σ κ) {sink last : σ}
  {before : List (Request σ)} {request owner : Request σ}

/-- The first of some passes that asked for a key. -/
def owner? (before : List (Request σ)) (k : κ) : Option (Request σ) :=
  before.find? fun earlier => register.key earlier.claim = k

theorem Successive.name? (h : Successive sink before last) (hvalid : register.Valid sink) :
    register.Valid last ∧
      ∀ k, register.name? last k =
        (register.name? sink k).or
          ((owner? register before k).map fun owner => owner.claim.qualifiedName) := by
  induction h with
  | nil sink => exact ⟨hvalid, fun k => Option.or_none.symm⟩
  | @cons request rest last later ih =>
    obtain ⟨hnext, hnames⟩ := request.name?_pass register hvalid
    obtain ⟨hlast, hlater⟩ := ih hnext
    refine ⟨hlast, fun k => ?_⟩
    rw [hlater, hnames, owner?, owner?, List.find?_cons]
    by_cases hkey : register.key request.claim = k
    · simp [hkey]
    · simp [hkey]

namespace Successive

/-- The register of the sink names the owners. -/
theorem name?_eq (h : Successive sink before last) (hfresh : register.Fresh sink) (k : κ) :
    register.name? last k =
      (owner? register before k).map fun owner => owner.claim.qualifiedName := by
  rw [(h.name? register hfresh.valid).2, hfresh.free, Option.none_or]

theorem skipped_iff_owned (h : Successive sink before request.world.sink)
    (hfresh : register.Fresh sink) :
    request.Skipped ↔ ∃ owner, owner? register before (register.key request.claim) = some owner ∧
      owner.claim.qualifiedName = request.claim.qualifiedName := by
  rw [request.skipped_iff register (h.name? register hfresh.valid).1, h.name?_eq register hfresh,
    Option.map_eq_some_iff]

theorem free_of_owner {k : κ} (h : Successive sink before last) (hfresh : register.Fresh sink)
    (howner : owner? register before k = some owner) :
    register.Valid owner.world.sink ∧ register.key owner.claim = k ∧
      register.name? owner.world.sink k = none := by
  obtain ⟨hkey, earlier, later, rfl, hnone⟩ := List.find?_eq_some_iff_append.1 howner
  have hearlier := h.split.1
  refine ⟨(hearlier.name? register hfresh.valid).1, of_decide_eq_true hkey, ?_⟩
  rw [hearlier.name?_eq register hfresh, Option.map_eq_none_iff, owner?, List.find?_eq_none]
  intro first hfirst
  simpa using hnone first hfirst

theorem owner_of_generated {earlier : Request σ} {name : String}
    (h : Successive sink before last) (hfresh : register.Fresh sink)
    (hmem : earlier ∈ before) (hgenerated : earlier.Generated name) :
    owner? register before (register.key earlier.claim) = some earlier := by
  obtain ⟨first, rest, rfl⟩ := List.mem_iff_append.1 hmem
  have hfirst := h.split.1
  have hfree := (hgenerated.free register (hfirst.name? register hfresh.valid).1).2
  rw [hfirst.name?_eq register hfresh, Option.map_eq_none_iff] at hfree
  rw [owner?, List.find?_append]
  change (owner? register first _).or _ = _
  rw [hfree, Option.none_or]
  simp

/-- A type with an owner has been generated exactly if the owner did not fail. -/
theorem generated_iff {k : κ} (h : Successive sink before last) (hfresh : register.Fresh sink)
    (howner : owner? register before k = some owner) :
    (∃ earlier ∈ before, register.key earlier.claim = k ∧
      earlier.Generated owner.claim.qualifiedName) ↔ ¬ owner.Failed := by
  obtain ⟨hvalid, hkey, hfree⟩ := h.free_of_owner register hfresh howner
  constructor
  · rintro ⟨earlier, hmem, hsame, hgenerated⟩
    have hearlier := h.owner_of_generated register hfresh hmem hgenerated
    rw [hsame, howner] at hearlier
    obtain rfl := Option.some.inj hearlier
    exact hgenerated.not_failed
  · intro hfine
    rw [← hkey] at hfree
    exact ⟨owner, List.mem_of_find?_eq_some howner, hkey,
      owner.generated_of_not_failed register hvalid hfree hfine⟩

theorem not_generated_of_granted {k : κ} {later : Request σ} {name : String}
    (h : Successive sink before last) (hvalid : register.Valid sink)
    (hgranted : register.name? sink k ≠ none) (hmem : later ∈ before)
    (hkey : register.key later.claim = k) : ¬ later.Generated name := by
  obtain ⟨first, rest, rfl⟩ := List.mem_iff_append.1 hmem
  obtain ⟨hlater, hnames⟩ := h.split.1.name? register hvalid
  intro hgenerated
  have hfree := (hgenerated.free register hlater).2
  rw [hnames, hkey, Option.or_eq_none_iff] at hfree
  exact hgranted hfree.1

end Successive

end

/-! ### What the memory sink holds under the name of a skipped type -/

namespace Request

theorem sources_pass {request : Request MemorySink}
    (hnone : ∀ name, ¬ request.Generated name) :
    request.pass.world.sink.sources = request.world.sink.sources := by
  have hends := Pass.ends_run request.plan request.bundle request.locale request.world
  change Pass.Ends _ _ _ _ request.pass at hends
  have hclaim : ∀ wanted, (Sink.claim request.world.sink wanted).2.sources =
      request.world.sink.sources := by
    intro wanted
    simp only [Sink.claim, MemorySink.claim]
    split <;> rfl
  unfold Generated at hnone
  generalize request.pass = pass at hends hnone ⊢
  cases hends with
  | unclaimed claimed | skipped claimed | refused claimed _ | stopped claimed _ _ =>
    have hsources := hclaim (Pass.wanted request.bundle request.locale)
    rw [claimed] at hsources
    exact hsources
  | unwritten _ _ _ refused => exact absurd (Prod.mk.inj refused).1 (by simp)
  | generated claimed _ _ _ => exact absurd ⟨_, rfl, rfl⟩ (hnone _)

theorem get?_pass {request : Request MemorySink} {name : String}
    (hnone : ¬ request.Generated name) :
    request.pass.world.sink.get? name = request.world.sink.get? name := by
  by_cases hother : ∃ other, request.Generated other
  · obtain ⟨other, hgenerated⟩ := hother
    have hname := (hgenerated.free MemorySink.register trivial).1
    obtain ⟨type, htype, -⟩ := id hgenerated
    have hcommitted : request.Committed request.plan := Pass.commits_assembly htype
    have hne : name ≠ request.claim.qualifiedName := by
      rintro rfl
      exact hnone (hname ▸ hgenerated)
    show (request.toTurn.pass request.plan).world.sink.sources.get? name = _
    rw [hcommitted.sources, OrderedMap.get?_insert_of_ne _ _ hne]
    rfl
  · rw [MemorySink.get?, sources_pass (not_exists.1 hother)]
    rfl

end Request

namespace Successive

theorem get?_of_not_generated {sink last : MemorySink} {before : List (Request MemorySink)}
    {name : String} (h : Successive sink before last)
    (hnone : ∀ request ∈ before, ¬ request.Generated name) : last.get? name = sink.get? name := by
  induction h with
  | nil sink => rfl
  | @cons request rest last later ih =>
    rw [List.forall_mem_cons] at hnone
    rw [ih hnone.2, Request.get?_pass hnone.1]

/-- The memory sink holds the source of the owner of a name, and nothing if the owner failed. -/
theorem get?_eq {last : MemorySink} {before : List (Request MemorySink)} {name : String}
    {owner : Request MemorySink} (h : Successive {} before last)
    (howner : owner? MemorySink.register before name = some owner) :
    (owner.Failed → last.get? name = none) ∧
      (¬ owner.Failed → last.get? name = some (owner.source owner.plan)) := by
  have hfresh := MemorySink.fresh_register
  obtain ⟨-, hkey, hfree⟩ := h.free_of_owner MemorySink.register hfresh howner
  constructor
  · intro hfailed
    rw [h.get?_of_not_generated fun earlier hmem hgenerated => ?_]
    · rfl
    · have hname := (hgenerated.free MemorySink.register trivial).1
      refine (h.generated_iff MemorySink.register hfresh howner).1 ⟨earlier, hmem, hname.symm, ?_⟩ hfailed
      rw [show owner.claim.qualifiedName = name from hkey]
      exact hgenerated
  · intro hfine
    obtain ⟨-, earlier, later, rfl, -⟩ := List.find?_eq_some_iff_append.1 howner
    have hgenerated := owner.generated_of_not_failed MemorySink.register trivial (hkey ▸ hfree) hfine
    obtain ⟨type, htype, -⟩ := id hgenerated
    have hcommitted : owner.Committed owner.plan := Pass.commits_assembly htype
    have hheld := hcommitted.get?.2
    have hgranted : MemorySink.register.name? owner.pass.world.sink name ≠ none := by
      rw [(owner.name?_pass MemorySink.register trivial).2, hfree, hkey, if_pos rfl]
      exact Option.some_ne_none _
    rw [h.split.2.get?_of_not_generated fun other hmem hother => ?_]
    · exact hkey ▸ hheld
    · have hname := (hother.free MemorySink.register trivial).1
      exact h.split.2.not_generated_of_granted MemorySink.register trivial hgranted hmem hname.symm hother

end Successive

/-! ### Skipped passes -/

/-- A pass is skipped exactly if its type has an owner of its name, and then the type was generated exactly
if that owner did not fail. -/
structure Skips {σ κ : Type} [Sink σ] [DecidableEq κ] (register : Sink.Register σ κ)
    (before : List (Request σ)) (request : Request σ) : Prop where
  skipped_iff : request.Skipped ↔
    ∃ owner, owner? register before (register.key request.claim) = some owner ∧
      owner.claim.qualifiedName = request.claim.qualifiedName
  generated_iff : ∀ owner, owner? register before (register.key request.claim) = some owner →
    ((∃ earlier ∈ before, register.key earlier.claim = register.key request.claim ∧
      earlier.Generated owner.claim.qualifiedName) ↔ ¬ owner.Failed)

theorem Successive.skips {σ κ : Type} [Sink σ] [DecidableEq κ] {register : Sink.Register σ κ}
    {sink : σ} {before : List (Request σ)} {request : Request σ} (hfresh : register.Fresh sink)
    (h : Successive sink before request.world.sink) : Skips register before request where
  skipped_iff := h.skipped_iff_owned register hfresh
  generated_iff _ howner := h.generated_iff register hfresh howner

namespace Run

/-- Whatever passes were made on a sink before, a pass on it is skipped exactly if the first one that asked
for its type asked for it under the same name. That type is then there exactly if that first pass did not
fail, and only then the memory sink holds a source for it. -/
theorem skips_on_one_sink (before : List (Request MemorySink)) (request : Request MemorySink)
    (outDir : Path) (filesBefore : List (Request FileSink)) (filesRequest : Request FileSink) :
    (Successive {} before request.world.sink →
      Skips MemorySink.register before request ∧
        ∀ owner, owner? MemorySink.register before request.claim.qualifiedName = some owner →
          (owner.Failed → request.world.sink.get? request.claim.qualifiedName = none) ∧
          (¬ owner.Failed → request.world.sink.get? request.claim.qualifiedName =
            some (owner.source owner.plan))) ∧
    (Successive ⟨outDir, .empty⟩ filesBefore filesRequest.world.sink →
      Skips (FileSink.register outDir) filesBefore filesRequest) := by
  constructor
  · intro hbefore
    exact ⟨hbefore.skips MemorySink.fresh_register, fun owner howner => hbefore.get?_eq howner⟩
  · intro hbefore
    exact hbefore.skips (FileSink.fresh_register outDir)

/-- A bundle whose only resource is missing. -/
def lost : Bundle where
  name := ⟨"crate::Lost"⟩
  accessors := [{ name := "note", kind := .textResource }]

def lostPlan : Plan := { hierarchy := .builtin, bundles := .empty }

def askLost {σ : Type} (sink : σ) : Request σ := ⟨⟨lost, none, ⟨.empty, {}, sink⟩⟩, lostPlan⟩

def askAgain {σ : Type} [Sink σ] (sink : σ) : Request σ :=
  ⟨⟨lost, none, (askLost sink).pass.world⟩, lostPlan⟩

theorem successive_askLost {σ : Type} [Sink σ] (sink : σ) :
    Successive sink [askLost sink] (askAgain sink).world.sink := by
  have hnext := Successive.nil (askLost sink).pass.world.sink
  exact .cons hnext

theorem skipped_askAgain {σ κ : Type} [Sink σ] [DecidableEq κ] {register : Sink.Register σ κ} {sink : σ}
    (hskips : Skips register [askLost sink] (askAgain sink)) (hfailed : (askLost sink).Failed) :
    (askAgain sink).Skipped ∧
      ¬ ∃ earlier ∈ [askLost sink], earlier.Generated "crate::LostImpl" := by
  have hname : (askLost sink).claim.qualifiedName = "crate::LostImpl" := by
    show (Pass.wanted lost none).qualifiedName = _
    decide +kernel
  have howner : owner? register [askLost sink] (register.key (askAgain sink).claim) =
      some (askLost sink) := List.find?_cons_of_pos (decide_eq_true rfl)
  refine ⟨hskips.skipped_iff.2 ⟨_, howner, rfl⟩, ?_⟩
  rintro ⟨earlier, hmem, hgenerated⟩
  refine (hskips.generated_iff _ howner).1 ⟨earlier, hmem, ?_, ?_⟩ hfailed
  · rw [List.mem_singleton.1 hmem]
    rfl
  · rwa [hname]

/-- The first pass fails and the second one is skipped, on both sinks: nobody has generated the type. -/
theorem skips_lost :
    ((askAgain ({} : MemorySink)).Skipped ∧
      (¬ ∃ earlier ∈ [askLost ({} : MemorySink)], earlier.Generated "crate::LostImpl") ∧
      (askAgain ({} : MemorySink)).world.sink.get? "crate::LostImpl" = none) ∧
    (askAgain (⟨⟨"/out"⟩, .empty⟩ : FileSink)).Skipped ∧
      ¬ ∃ earlier ∈ [askLost (⟨⟨"/out"⟩, .empty⟩ : FileSink)], earlier.Generated "crate::LostImpl" := by
  have hmemoryFailed : (askLost ({} : MemorySink)).pass.result = Pass.failWith lost none
      [⟨⟨"crate::Lost"⟩, some "note", .preparing, .noDefault [".txt"]⟩] := by decide +kernel
  have hfilesFailed : (askLost (⟨⟨"/out"⟩, .empty⟩ : FileSink)).pass.result = Pass.failWith lost none
      [⟨⟨"crate::Lost"⟩, some "note", .preparing, .noDefault [".txt"]⟩] := by decide +kernel
  obtain ⟨hmemory, hfiles⟩ := skips_on_one_sink [askLost {}] (askAgain {}) ⟨"/out"⟩
    [askLost ⟨⟨"/out"⟩, .empty⟩] (askAgain ⟨⟨"/out"⟩, .empty⟩)
  obtain ⟨hskips, hheld⟩ := hmemory (successive_askLost _)
  obtain ⟨hskipped, hnone⟩ := skipped_askAgain hskips ⟨_, hmemoryFailed⟩
  have howner : owner? MemorySink.register [askLost ({} : MemorySink)]
      (askAgain ({} : MemorySink)).claim.qualifiedName = some (askLost {}) :=
    List.find?_cons_of_pos (decide_eq_true rfl)
  exact ⟨⟨hskipped, hnone, (hheld _ howner).1 ⟨_, hmemoryFailed⟩⟩,
    skipped_askAgain (hfiles (successive_askLost _)) ⟨_, hfilesFailed⟩⟩

end Run

end BundleForge
