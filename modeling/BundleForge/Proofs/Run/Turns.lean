import BundleForge.Proofs.Pass.Success
import BundleForge.Proofs.Sink.Register
import BundleForge.Run
/-!
# The passes of a run and their worlds

Each pass of a run starts in the world that the passes before it have left. A turn is a pass with that
world. When a run succeeds no turn has failed, so each of them either committed the source that was
assembled in it, or was skipped because the sink had granted its name before.
-/

namespace BundleForge

/-- A pass of a run, with the world in which it starts. -/
structure Turn (σ : Type) where
  bundle : Bundle
  locale : Option String
  world : World σ

namespace Turn

variable {σ : Type}

def claim (turn : Turn σ) : Claim := Pass.wanted turn.bundle turn.locale

def source (plan : Plan) (turn : Turn σ) : String :=
  (Pass.assembly plan turn.bundle turn.locale (Pass.opening turn.world)
    (Pass.tasksOf plan turn.bundle)).source

variable [Sink σ]

def pass (plan : Plan) (turn : Turn σ) : Pass σ := Pass.run plan turn.bundle turn.locale turn.world

/-- The sink takes the source that was assembled in the pass. -/
def Committed (plan : Plan) (turn : Turn σ) : Prop :=
  Pass.Commits plan turn.bundle turn.locale turn.world (turn.source plan)

/-- The name was granted before, and nothing happens. -/
def Skipped (plan : Plan) (turn : Turn σ) : Prop :=
  (Sink.claim turn.world.sink turn.claim).1 = .ok none ∧
    (turn.pass plan).world = { turn.world with sink := (Sink.claim turn.world.sink turn.claim).2 }

def Succeeds (plan : Plan) (turn : Turn σ) : Prop :=
  ∀ failed, (turn.pass plan).result ≠ .failed failed

variable {plan : Plan} {turn : Turn σ}

theorem Skipped.not_committed (hskipped : turn.Skipped plan) : ¬ turn.Committed plan := by
  rintro ⟨claim, granted, path, hclaim, -⟩
  have hnone := hskipped.1
  rw [Turn.claim, hclaim] at hnone
  simp at hnone

theorem committed_or_skipped (h : turn.Succeeds plan) :
    turn.Committed plan ∨ turn.Skipped plan := by
  cases hresult : (turn.pass plan).result with
  | generated type => exact Or.inl (Pass.commits_assembly hresult)
  | failed failed => exact absurd hresult (h failed)
  | skipped => exact Or.inr (Pass.run_skipped hresult)

/-! ### What the sink grants -/

variable {κ : Type} [DecidableEq κ] (register : Sink.Register σ κ)

theorem Committed.granted (hcommitted : turn.Committed plan)
    (hvalid : register.Valid turn.world.sink) :
    ¬ register.Taken turn.world.sink (register.key turn.claim) ∧
      register.Valid (turn.pass plan).world.sink ∧
      ∀ k, register.Taken (turn.pass plan).world.sink k ↔
        register.Taken turn.world.sink k ∨ k = register.key turn.claim := by
  obtain ⟨claim, granted, path, hclaim, hcommit⟩ := hcommitted
  obtain ⟨-, hfree, hgranted, htaken⟩ := register.granted hvalid hclaim
  obtain ⟨hafter, hsame⟩ := register.name?_commit hgranted hcommit
  have hkept : ∀ k, register.Taken (turn.pass plan).world.sink k ↔ register.Taken granted k := fun k =>
    not_congr (iff_of_eq (congrArg (· = none) (congrFun hsame k)))
  exact ⟨hfree, hafter, fun k => (hkept k).trans (htaken k)⟩

theorem Skipped.passed_over (hskipped : turn.Skipped plan)
    (hvalid : register.Valid turn.world.sink) :
    register.Taken turn.world.sink (register.key turn.claim) ∧ (turn.pass plan).world = turn.world := by
  obtain ⟨htaken, hsink⟩ := register.passed_over hvalid hskipped.1
  rw [hskipped.2, hsink]
  exact ⟨htaken, rfl⟩

end Turn

namespace Run

variable {σ : Type} [Sink σ]

def turns (plan : Plan) (world : World σ) : List (Bundle × Option String) → List (Turn σ)
  | [] => []
  | (bundle, locale) :: rest =>
    ⟨bundle, locale, world⟩ :: turns plan (Pass.run plan bundle locale world).world rest

def after (plan : Plan) (world : World σ) : List (Bundle × Option String) → World σ
  | [] => world
  | (bundle, locale) :: rest => after plan (Pass.run plan bundle locale world).world rest

variable {plan : Plan} {world : World σ} {passes : List (Bundle × Option String)}

theorem subjects_turns (plan : Plan) (world : World σ) (passes : List (Bundle × Option String)) :
    (turns plan world passes).map (fun turn => (turn.bundle, turn.locale)) = passes := by
  induction passes generalizing world with
  | nil => rfl
  | cons pass rest ih =>
    rw [turns, List.map_cons, ih]

theorem world_each (plan : Plan) (world : World σ) (report : Report)
    (passes : List (Bundle × Option String)) :
    (each plan world report passes).2 = after plan world passes := by
  induction passes generalizing world report with
  | nil => rfl
  | cons pass rest ih => exact ih _ _

theorem failures_each {report : Report} (h : (each plan world report passes).1.failures = []) :
    report.failures = [] ∧ ∀ turn ∈ turns plan world passes, turn.Succeeds plan := by
  induction passes generalizing world report with
  | nil => exact ⟨h, fun _ hturn => absurd hturn List.not_mem_nil⟩
  | cons pass rest ih =>
    obtain ⟨hadd, hrest⟩ := ih h
    cases hresult : (Pass.run plan pass.1 pass.2 world).result with
    | failed failed =>
      rw [hresult] at hadd
      exact absurd hadd (List.concat_ne_nil _ _)
    | generated type =>
      rw [hresult] at hadd
      refine ⟨hadd, List.forall_mem_cons.2 ⟨fun failed hfailed => ?_, hrest⟩⟩
      rw [Turn.pass, hresult] at hfailed
      exact PassResult.noConfusion hfailed
    | skipped =>
      rw [hresult] at hadd
      refine ⟨hadd, List.forall_mem_cons.2 ⟨fun failed hfailed => ?_, hrest⟩⟩
      rw [Turn.pass, hresult] at hfailed
      exact PassResult.noConfusion hfailed

section

variable {κ : Type} [DecidableEq κ] (register : Sink.Register σ κ)

def keys (passes : List (Bundle × Option String)) : List κ :=
  passes.map fun pass => register.key (Pass.wanted pass.1 pass.2)

/-- Where no pass fails all of them commit their sources exactly if their keys are free and different. -/
theorem forall_committed_iff (hvalid : register.Valid world.sink)
    (hfine : ∀ turn ∈ turns plan world passes, turn.Succeeds plan) :
    (∀ turn ∈ turns plan world passes, turn.Committed plan) ↔
      (keys register passes).Nodup ∧ ∀ k ∈ keys register passes, ¬ register.Taken world.sink k := by
  induction passes generalizing world with
  | nil => simp [turns, keys]
  | cons pass rest ih =>
    let turn : Turn σ := ⟨pass.1, pass.2, world⟩
    change ∀ other ∈ turn :: turns plan (turn.pass plan).world rest, _ at hfine
    show (∀ other ∈ turn :: turns plan (turn.pass plan).world rest, _) ↔
      (register.key turn.claim :: keys register rest).Nodup ∧
        ∀ k ∈ register.key turn.claim :: keys register rest, _
    rw [List.forall_mem_cons] at hfine
    rw [List.forall_mem_cons, List.forall_mem_cons, List.nodup_cons]
    -- A skipped turn found its key taken, and then neither side holds.
    rcases Turn.committed_or_skipped hfine.1 with hcommitted | hskipped
    · obtain ⟨hfree, hnext, htaken⟩ := hcommitted.granted register hvalid
      rw [ih hnext hfine.2]
      constructor
      · rintro ⟨-, hnodup, hrest⟩
        have hnew : ∀ k ∈ keys register rest, ¬ register.Taken world.sink k ∧ k ≠ register.key turn.claim :=
          fun k hk => not_or.1 fun h => hrest k hk ((htaken k).2 h)
        exact ⟨⟨fun hmem => (hnew _ hmem).2 rfl, hnodup⟩, hfree, fun k hk => (hnew k hk).1⟩
      · rintro ⟨⟨hnew, hnodup⟩, -, hrest⟩
        refine ⟨hcommitted, hnodup, fun k hk htakenNext => ?_⟩
        rcases (htaken k).1 htakenNext with htakenNow | rfl
        · exact hrest k hk htakenNow
        · exact hnew hk
    · have htaken := (hskipped.passed_over register hvalid).1
      exact ⟨fun h => absurd h.1 hskipped.not_committed, fun h => absurd htaken h.2.1⟩

end

end Run

end BundleForge
