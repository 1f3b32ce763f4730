import BundleForge.Proofs.Run.Turns
import BundleForge.Proofs.Sink.Register
/-!
# Passes that share a sink

Passes on one sink need not share anything else: between two of them the plan, the files and what the finder
remembers may change. What the sink answers to the claim of a pass depends on the claims alone, whether the
passes before it went on to generate their types or failed.
-/

namespace BundleForge

namespace Pass

variable {σ κ : Type} [Sink σ] [DecidableEq κ] (register : Sink.Register σ κ) {plan : Plan}
  {bundle : Bundle} {locale : Option String} {world : World σ}

theorem Ends.name? {pass : Pass σ} (h : Ends plan bundle locale world pass)
    (hvalid : register.Valid (Sink.claim world.sink (wanted bundle locale)).2) :
    register.Valid pass.world.sink ∧
      register.name? pass.world.sink =
        register.name? (Sink.claim world.sink (wanted bundle locale)).2 := by
  cases h with
  | unclaimed claimed | skipped claimed | refused claimed _ | stopped claimed _ _ =>
    rw [claimed] at hvalid ⊢
    exact ⟨hvalid, rfl⟩
  | unwritten claimed _ _ taken | generated claimed _ _ taken =>
    rw [claimed] at hvalid ⊢
    exact register.name?_commit hvalid taken

theorem run_skipped_iff :
    (run plan bundle locale world).result = .skipped ↔
      (Sink.claim world.sink (wanted bundle locale)).1 = .ok none := by
  constructor
  · exact fun h => (run_skipped h).1
  · intro hnone
    have hends := ends_run plan bundle locale world
    generalize run plan bundle locale world = pass at hends ⊢
    cases hends with
    | skipped claimed => rfl
    | unclaimed claimed | refused claimed _ | stopped claimed _ _ | unwritten claimed _ _ _
    | generated claimed _ _ _ =>
      rw [claimed] at hnone
      simp at hnone

theorem granted_of_generated {type : GeneratedType}
    (h : (run plan bundle locale world).result = .generated type) :
    ∃ claim sink, Sink.claim world.sink (wanted bundle locale) = (.ok (some claim), sink) ∧
      type.qualifiedName = claim.qualifiedName := by
  have hends := ends_run plan bundle locale world
  generalize run plan bundle locale world = pass at h hends
  cases hends with
  | generated claimed _ _ _ =>
    obtain rfl := PassResult.generated.inj h
    exact ⟨_, _, claimed, rfl⟩
  | unclaimed claimed | skipped claimed | refused claimed _ | stopped claimed _ _
  | unwritten claimed _ _ _ => simp [failWith] at h

end Pass

/-- A pass with all that it reads. -/
structure Request (σ : Type) extends Turn σ where
  plan : Plan

namespace Request

variable {σ κ : Type} [Sink σ]

def pass (request : Request σ) : Pass σ := request.toTurn.pass request.plan

def Skipped (request : Request σ) : Prop := request.pass.result = .skipped

def Failed (request : Request σ) : Prop := ∃ failed, request.pass.result = .failed failed

/-- The pass has committed a source, under this name. -/
def Generated (request : Request σ) (name : String) : Prop :=
  ∃ type, request.pass.result = .generated type ∧ type.qualifiedName = name

theorem Generated.not_failed {request : Request σ} {name : String}
    (hgenerated : request.Generated name) : ¬ request.Failed := by
  obtain ⟨type, htype, -⟩ := hgenerated
  rintro ⟨failed, hfailed⟩
  rw [htype] at hfailed
  exact PassResult.noConfusion hfailed

variable [DecidableEq κ] (register : Sink.Register σ κ) {request : Request σ}

theorem name?_pass (hvalid : register.Valid request.world.sink) :
    register.Valid request.pass.world.sink ∧
      ∀ k, register.name? request.pass.world.sink k =
        (register.name? request.world.sink k).or
          (if register.key request.claim = k then some request.claim.qualifiedName else none) := by
  obtain ⟨hclaimed, hnames⟩ := register.name?_claim hvalid request.claim
  have hends := Pass.ends_run request.plan request.bundle request.locale request.world
  obtain ⟨hvalid', hsame⟩ := hends.name? register hclaimed
  exact ⟨hvalid', fun k => (congrFun hsame k).trans (hnames k)⟩

theorem skipped_iff (hvalid : register.Valid request.world.sink) :
    request.Skipped ↔
      register.name? request.world.sink (register.key request.claim) =
        some request.claim.qualifiedName :=
  Pass.run_skipped_iff.trans (register.passed_over_iff hvalid)

/-- A pass generates its type under its own name, and only if nobody claimed it before. -/
theorem Generated.free {name : String} (hgenerated : request.Generated name)
    (hvalid : register.Valid request.world.sink) :
    name = request.claim.qualifiedName ∧
      register.name? request.world.sink (register.key request.claim) = none := by
  obtain ⟨type, htype, rfl⟩ := hgenerated
  obtain ⟨claim, sink, hclaim, hname⟩ := Pass.granted_of_generated htype
  obtain ⟨rfl, hfree⟩ := register.free_of_granted hvalid hclaim
  exact ⟨hname, hfree⟩

theorem generated_of_not_failed (hvalid : register.Valid request.world.sink)
    (hfree : register.name? request.world.sink (register.key request.claim) = none)
    (hfine : ¬ request.Failed) : request.Generated request.claim.qualifiedName := by
  cases hresult : request.pass.result with
  | failed failed => exact absurd ⟨failed, hresult⟩ hfine
  | skipped =>
    rw [(request.skipped_iff register hvalid).1 hresult] at hfree
    exact absurd hfree (Option.some_ne_none _)
  | generated type =>
    have hgenerated : request.Generated type.qualifiedName := ⟨type, hresult, rfl⟩
    exact ⟨type, hresult, (hgenerated.free register hvalid).1⟩

end Request

/-! ### Passes on one sink -/

variable {σ : Type} [Sink σ]

/-- Passes one after the other on one sink. -/
inductive Successive : σ → List (Request σ) → σ → Prop
  | nil (sink : σ) : Successive sink [] sink
  | cons {request : Request σ} {rest : List (Request σ)} {last : σ}
      (later : Successive request.pass.world.sink rest last) :
      Successive request.world.sink (request :: rest) last

theorem Successive.split {sink last : σ} {earlier later : List (Request σ)} {request : Request σ}
    (h : Successive sink (earlier ++ request :: later) last) :
    Successive sink earlier request.world.sink ∧
      Successive request.pass.world.sink later last := by
  induction earlier generalizing sink with
  | nil =>
    cases h with
    | cons rest => exact ⟨.nil _, rest⟩
  | cons first earlier ih =>
    cases h with
    | cons rest => exact ⟨.cons (ih rest).1, (ih rest).2⟩

end BundleForge
