import BundleForge.Proofs.Pass.Protocol
import BundleForge.Proofs.Pass.Sources
import BundleForge.Proofs.Sink
/-!
# The failures of a pass

Whatever a pass tries may fail: claiming the type, finding a generator for an accessor, each call of a
generator, and handing over the source. `attempts` lists all of it in order, with the phase it belongs to and
the accessor it is about. A pass fails if one of its attempts does, and then reports the failures of the phase
of the first one; that phase is its last.
-/

namespace BundleForge

def Step.phase : Step → Phase
  | .init | .prepare _ => .preparing
  | .createFields | .createAssignment _ => .emitting
  | .finish => .finishing

/-- Something a pass tried, and how it failed if it did. -/
structure Pass.Attempt where
  phase : Phase
  accessor : Option Accessor
  failure : Option ResourceError

def Call.attempt (call : Call) : Pass.Attempt := ⟨call.step.phase, call.step.accessor?, call.failure⟩

namespace Pass

namespace Attempt

def report (bundle : Bundle) (attempts : List Attempt) : List Diagnostic :=
  attempts.filterMap fun attempt =>
    attempt.failure.map fun error =>
      ⟨bundle.name, attempt.accessor.map (·.name), attempt.phase, error⟩

/-- The phase in which something failed first. -/
def failingPhase? (attempts : List Attempt) : Option Phase :=
  (attempts.find? (·.failure.isSome)).map (·.phase)

def AllSucceed (attempts : List Attempt) : Prop := ∀ attempt ∈ attempts, attempt.failure = none

variable {attempts before last : List Attempt} {phase : Phase}

theorem failingPhase?_eq_none_iff : failingPhase? attempts = none ↔ AllSucceed attempts := by
  rw [failingPhase?, Option.map_eq_none_iff, List.find?_eq_none]
  simp only [AllSucceed, Option.not_isSome_iff_eq_none]

theorem report_eq_nil (bundle : Bundle) (h : AllSucceed attempts) : report bundle attempts = [] := by
  apply List.filterMap_eq_nil_iff.2
  intro attempt hmem
  rw [h attempt hmem]
  rfl

/-- When all goes well up to some phase, that is the phase that fails. -/
theorem failingPhase?_append (hbefore : AllSucceed before)
    (hphase : ∀ attempt ∈ last, attempt.phase = phase) (hfailed : ¬AllSucceed last) :
    failingPhase? (before ++ last) = some phase := by
  have hnone : before.find? (·.failure.isSome) = none := by
    rw [List.find?_eq_none]
    intro attempt hmem
    simp [hbefore attempt hmem]
  rw [failingPhase?, List.find?_append, hnone, Option.none_or]
  cases hfind : last.find? (·.failure.isSome) with
  | none =>
    rw [List.find?_eq_none] at hfind
    refine absurd ?_ hfailed
    intro attempt hmem
    exact Option.not_isSome_iff_eq_none.1 (hfind attempt hmem)
  | some attempt => exact congrArg some (hphase attempt (List.mem_of_find?_eq_some hfind))

theorem report_append (bundle : Bundle) (hbefore : AllSucceed before)
    (hphase : ∀ attempt ∈ last, attempt.phase = phase) :
    report bundle ((before ++ last).filter (·.phase = phase)) = report bundle last := by
  have hlast : last.filter (·.phase = phase) = last :=
    List.filter_eq_self.2 fun attempt hmem => decide_eq_true (hphase attempt hmem)
  have hnone : report bundle (before.filter (·.phase = phase)) = [] :=
    report_eq_nil bundle fun attempt hmem => hbefore attempt (List.mem_of_mem_filter hmem)
  rw [List.filter_append, hlast]
  show List.filterMap _ _ = _
  rw [List.filterMap_append]
  exact congrArg (· ++ report bundle last) hnone

end Attempt

section

variable {σ : Type} [Sink σ] (plan : Plan) (bundle : Bundle) (locale : Option String)
  (world : World σ)

/-- Finding a generator for an accessor. -/
def dispatching (accessor : Accessor) : Attempt where
  phase := .initializing
  accessor := some accessor
  failure :=
    match plan.registry.resolve plan.hierarchy accessor.kind with
    | .ok _ => none
    | .error error => some error

/-- Handing the source to the sink. -/
def handing (sink : σ) (claim : Claim) : List Attempt :=
  match (worked plan bundle locale world).result with
  | .ok source =>
    [⟨.finishing, none, Running.error?
      (Sink.commit sink (worked plan bundle locale world).session.files claim source).1⟩]
  | .error _ => []

/-- All that is tried in a pass, in order. -/
def attempts (pass : Pass σ) : List Attempt :=
  let (granted, sink) := Sink.claim world.sink (wanted bundle locale)
  ⟨.initializing, none, Running.error? granted⟩ ::
    match granted with
    | .ok (some claim) =>
      bundle.accessors.map (dispatching plan) ++ pass.journal.map Call.attempt ++
        if pass.committed then handing plan bundle locale world sink claim else []
    | _ => []

/-- A pass reports the failures of the first phase that had any, and nothing fails in another phase. -/
structure Reports (pass : Pass σ) : Prop where
  failed_iff : (∃ failed, pass.result = .failed failed) ↔
    ∃ attempt ∈ attempts plan bundle locale world pass, attempt.failure ≠ none
  diagnostics : ∀ phase,
    Attempt.failingPhase? (attempts plan bundle locale world pass) = some phase →
      pass.result = .failed ⟨bundle.name, locale, Attempt.report bundle
        ((attempts plan bundle locale world pass).filter (·.phase = phase))⟩
  last : ∀ phase,
    Attempt.failingPhase? (attempts plan bundle locale world pass) = some phase →
      ∀ attempt ∈ attempts plan bundle locale world pass, attempt.failure ≠ none →
        attempt.phase = phase

end

/-! ### Attempts that belong together -/

theorem allSucceed_dispatching {plan : Plan} {bundle : Bundle} :
    Attempt.AllSucceed (bundle.accessors.map (dispatching plan)) ↔
      (Dispatch.ofBundle plan.registry plan.hierarchy bundle).refused = [] := by
  rw [Dispatch.refused_eq_nil_iff, Attempt.AllSucceed, List.forall_mem_map]
  apply forall₂_congr
  intro accessor hmem
  rw [dispatching]
  dsimp only
  cases plan.registry.resolve plan.hierarchy accessor.kind with
  | ok kind => simp
  | error error => simp

theorem report_dispatching (plan : Plan) (bundle : Bundle) :
    Attempt.report bundle (bundle.accessors.map (dispatching plan)) =
      (Dispatch.ofBundle plan.registry plan.hierarchy bundle).diagnostics bundle := by
  rw [Dispatch.diagnostics, Dispatch.ofBundle, Dispatch.refused_foldl_add, List.nil_append,
    List.map_filterMap, Attempt.report, List.filterMap_map]
  apply List.filterMap_congr
  intro accessor hmem
  rw [Function.comp_apply, dispatching]
  dsimp only
  cases plan.registry.resolve plan.hierarchy accessor.kind with
  | ok kind => rfl
  | error error => rfl

theorem allSucceed_journal {journal : Journal} :
    Attempt.AllSucceed (journal.map Call.attempt) ↔ Clean journal := List.forall_mem_map

theorem report_journal (bundle : Bundle) {phase : Phase} {journal : Journal}
    (hphase : ∀ call ∈ journal, call.step.phase = phase) :
    Attempt.report bundle (journal.map Call.attempt) = diagnostics bundle phase journal := by
  rw [Attempt.report, diagnostics, List.filterMap_map]
  apply List.filterMap_congr
  intro call hmem
  rw [← hphase call hmem]
  rfl

/-! ### The phases of calls -/

theorem phase_of_requests {journal : Journal} {requests : List (GeneratorId × Step)} {phase : Phase}
    (hrequests : journal.map Call.request = requests)
    (hphase : ∀ request ∈ requests, request.2.phase = phase) :
    ∀ call ∈ journal, call.step.phase = phase := by
  intro call hmem
  apply hphase call.request
  rw [← hrequests]
  exact List.mem_map_of_mem hmem

theorem Starts.phase {tasks : List Task} {journal : Journal} (h : Starts tasks journal) :
    ∀ call ∈ journal, call.step.phase = .preparing := by
  induction h with
  | nil => simp
  | @refused task rest init others inits failed starts ih =>
    have hinit : init.step = .init := congrArg Prod.snd inits
    rw [List.forall_mem_cons, hinit]
    exact ⟨rfl, ih⟩
  | @started task rest init prepares others inits succeeded asked starts ih =>
    have hinit : init.step = .init := congrArg Prod.snd inits
    have hprepares : ∀ call ∈ prepares, call.step.phase = .preparing := by
      apply phase_of_requests asked
      simp [Step.phase]
    rw [List.cons_append, List.forall_mem_cons, List.forall_mem_append, hinit]
    exact ⟨rfl, hprepares, ih⟩

theorem Emits.phase {tasks : List Task} {journal : Journal} (h : Emits tasks journal) :
    ∀ call ∈ journal, call.step.phase = .emitting := by
  apply phase_of_requests h
  intro request hmem
  rcases List.mem_append.1 hmem with hdefines | hassigns
  · obtain ⟨task, -, rfl⟩ := List.mem_map.1 hdefines
    rfl
  · obtain ⟨task, -, hassigns⟩ := List.mem_flatMap.1 hassigns
    obtain ⟨accessor, -, rfl⟩ := List.mem_map.1 hassigns
    rfl

theorem Finishes.phase {tasks : List Task} {journal : Journal} (h : Finishes tasks journal) :
    ∀ call ∈ journal, call.step.phase = .finishing := by
  apply phase_of_requests h
  intro request hmem
  obtain ⟨task, -, rfl⟩ := List.mem_map.1 hmem
  rfl

section

variable {plan : Plan} {bundle : Bundle} {locale : Option String}

/-- The calls of the phase that failed are the last ones, and they make the diagnostics. -/
theorem Course.stops {session : Session} {tasks : List Task} {work : Work} {reported : List Diagnostic}
    (h : Course plan bundle locale session tasks work) (hfailed : work.result = .error reported) :
    ∃ before last phase, work.journal = before ++ last ∧ Clean before ∧ ¬Clean last ∧
      (∀ call ∈ last, call.step.phase = phase) ∧
      reported = Pass.diagnostics bundle phase last := by
  have hstarts : Starts tasks (Pass.preparing plan bundle locale session tasks) :=
    starts_prepareAll _ session tasks
  cases h with
  | preparing failed =>
    obtain rfl := Except.error.inj hfailed
    exact ⟨[], _, _, rfl, by simp [Clean], failed, hstarts.phase, rfl⟩
  | emitting prepare failed =>
    obtain rfl := Except.error.inj hfailed
    exact ⟨_, _, _, rfl, prepare, failed, emits_emitting.phase, rfl⟩
  | finishing prepare emit failed =>
    obtain rfl := Except.error.inj hfailed
    exact ⟨_, _, _, rfl, List.forall_mem_append.2 ⟨prepare, emit⟩, failed,
      finishes_finishing.phase, rfl⟩
  | done prepare emit finish => simp at hfailed

theorem Course.clean {session : Session} {tasks : List Task} {work : Work} {source : String}
    (h : Course plan bundle locale session tasks work) (hmade : work.result = .ok source) :
    Clean work.journal := by
  cases h with
  | preparing failed => simp at hmade
  | emitting prepare failed => simp at hmade
  | finishing prepare emit failed => simp at hmade
  | done prepare emit finish =>
    rw [Clean, List.forall_mem_append, List.forall_mem_append]
    exact ⟨⟨prepare, emit⟩, finish⟩

variable {σ : Type} [Sink σ] {world : World σ} {pass : Pass σ}

theorem reports_of_failure (before last : List Attempt) (phase : Phase)
    (hattempts : attempts plan bundle locale world pass = before ++ last)
    (hbefore : Attempt.AllSucceed before) (hphase : ∀ attempt ∈ last, attempt.phase = phase)
    (hfailed : ¬Attempt.AllSucceed last)
    (hresult : pass.result = failWith bundle locale (Attempt.report bundle last)) :
    Reports plan bundle locale world pass := by
  have hfailing := Attempt.failingPhase?_append hbefore hphase hfailed
  constructor
  · rw [hattempts]
    constructor
    · intro _
      by_contra hnone
      apply hfailed
      intro attempt hmem
      by_contra hfailure
      exact hnone ⟨attempt, List.mem_append_right _ hmem, hfailure⟩
    · intro _
      exact ⟨_, hresult⟩
  · intro other hother
    rw [hattempts] at hother ⊢
    obtain rfl := Option.some.inj (hfailing.symm.trans hother)
    rw [Attempt.report_append bundle hbefore hphase]
    exact hresult
  · intro other hother attempt hmem hfailure
    rw [hattempts] at hother hmem
    obtain rfl := Option.some.inj (hfailing.symm.trans hother)
    rcases List.mem_append.1 hmem with hearlier | hlast
    · exact absurd (hbefore attempt hearlier) hfailure
    · exact hphase attempt hlast

theorem reports_of_success (hsucceed : Attempt.AllSucceed (attempts plan bundle locale world pass))
    (hresult : ∀ failed, pass.result ≠ .failed failed) : Reports plan bundle locale world pass := by
  have hfailing := Attempt.failingPhase?_eq_none_iff.2 hsucceed
  constructor
  · constructor
    · rintro ⟨failed, hfailed⟩
      exact absurd hfailed (hresult failed)
    · rintro ⟨attempt, hmem, hfailure⟩
      exact absurd (hsucceed attempt hmem) hfailure
  · intro phase hphase
    rw [hfailing] at hphase
    simp at hphase
  · intro phase hphase
    rw [hfailing] at hphase
    simp at hphase

theorem attempts_of_claimed {claim : Claim} {sink : σ}
    (claimed : Sink.claim world.sink (wanted bundle locale) = (.ok (some claim), sink)) :
    attempts plan bundle locale world pass =
      (⟨.initializing, none, none⟩ :: (bundle.accessors.map (dispatching plan) ++
        pass.journal.map Call.attempt)) ++
          if pass.committed then handing plan bundle locale world sink claim else [] := by
  rw [attempts, claimed]
  rfl

theorem allSucceed_until_called
    (admitted : (Dispatch.ofBundle plan.registry plan.hierarchy bundle).refused = [])
    {journal : Journal} (hclean : Clean journal) :
    Attempt.AllSucceed (⟨.initializing, none, none⟩ ::
      (bundle.accessors.map (dispatching plan) ++ journal.map Call.attempt)) := by
  rw [Attempt.AllSucceed, List.forall_mem_cons, List.forall_mem_append]
  exact ⟨rfl, allSucceed_dispatching.2 admitted, allSucceed_journal.2 hclean⟩

theorem Ends.reports (h : Ends plan bundle locale world pass) :
    Reports plan bundle locale world pass := by
  cases h with
  | @unclaimed error sink claimed =>
    apply reports_of_failure [] [⟨.initializing, none, some error⟩] .initializing
    · rw [attempts, claimed]
      rfl
    · simp [Attempt.AllSucceed]
    · simp
    · simp [Attempt.AllSucceed]
    · rfl
  | @skipped sink claimed =>
    apply reports_of_success
    · rw [attempts, claimed]
      simp [Attempt.AllSucceed, Running.error?]
    · simp
  | @refused claim sink claimed refused =>
    apply reports_of_failure [⟨.initializing, none, none⟩]
      (bundle.accessors.map (dispatching plan)) .initializing
    · rw [attempts, claimed]
      simp [Running.error?]
    · simp [Attempt.AllSucceed]
    · simp [dispatching]
    · rw [allSucceed_dispatching]
      exact refused
    · rw [report_dispatching]
  | @stopped claim sink reported claimed admitted failed =>
    obtain ⟨before, last, phase, hjournal, hbefore, hlast, hphase, rfl⟩ :=
      (course_work plan bundle locale (opening world) (tasksOf plan bundle)).stops failed
    apply reports_of_failure
      (⟨.initializing, none, none⟩ ::
        (bundle.accessors.map (dispatching plan) ++ before.map Call.attempt))
      (last.map Call.attempt) phase
    · rw [attempts_of_claimed claimed]
      dsimp only
      rw [worked, hjournal, List.map_append]
      simp
    · exact allSucceed_until_called admitted hbefore
    · exact List.forall_mem_map.2 hphase
    · rw [allSucceed_journal]
      exact hlast
    · rw [report_journal bundle hphase]
  | @unwritten claim sink next source error files claimed admitted made refused =>
    have hclean := (course_work plan bundle locale (opening world) (tasksOf plan bundle)).clean made
    apply reports_of_failure
      (⟨.initializing, none, none⟩ :: (bundle.accessors.map (dispatching plan) ++
        (worked plan bundle locale world).journal.map Call.attempt))
      [⟨.finishing, none, some error⟩] .finishing
    · rw [attempts_of_claimed claimed, handing, made]
      dsimp only
      rw [refused]
      rfl
    · exact allSucceed_until_called admitted hclean
    · simp
    · simp [Attempt.AllSucceed]
    · rfl
  | @generated claim sink next source path files claimed admitted made taken =>
    have hclean := (course_work plan bundle locale (opening world) (tasksOf plan bundle)).clean made
    apply reports_of_success
    · rw [attempts_of_claimed claimed, handing, made]
      dsimp only
      rw [taken, if_pos rfl]
      rw [Attempt.AllSucceed, List.forall_mem_append, List.forall_mem_singleton]
      exact ⟨allSucceed_until_called admitted hclean, rfl⟩
    · simp

/-! ### What a pass leaves behind that was not committed -/

/-- The sink still holds what it held, and files are as the calls of the pass have left them. -/
structure Keeps (plan : Plan) (bundle : Bundle) (locale : Option String) (world : World σ)
    (pass : Pass σ) : Prop where
  sink : ∀ view : Sink.View σ, view.held pass.world.sink = view.held world.sink
  files : ∃ last,
    Makes (plan.context bundle locale) (.fresh (opening world) (tasksOf plan bundle)) pass.journal last ∧
      pass.world.files = last.session.files
  sources : plan.registry.KeepsSources →
    FileSystem.Grows FileSystem.IsSource world.files pass.world.files

theorem Follows.keeps (h : Follows plan bundle locale world pass) (hcommitted : pass.committed = false) :
    Keeps plan bundle locale world pass := by
  obtain ⟨last, hmakes, hleaves⟩ := h.made
  have hworld : pass.world = ⟨last.session.files, last.session.finder,
      (Sink.claim world.sink (wanted bundle locale)).2⟩ := by
    rw [hcommitted] at hleaves
    generalize pass.world = left at hleaves
    cases hleaves with
    | uncommitted => rfl
  constructor
  · intro view
    rw [hworld]
    exact view.claim_keeps world.sink (wanted bundle locale)
  · exact ⟨last, hmakes, congrArg World.files hworld⟩
  · intro hkeeps
    rw [hworld]
    exact hmakes.grows_opening hkeeps

/-- A pass fails exactly if something it tried did, and reports the failures of the first phase that had any.
If it was not committed, the sink holds what it held before. -/
theorem failures_run (plan : Plan) (bundle : Bundle) (locale : Option String) (world : World σ) :
    Reports plan bundle locale world (run plan bundle locale world) ∧
      ((run plan bundle locale world).committed = false →
        Keeps plan bundle locale world (run plan bundle locale world)) := by
  have hends := ends_run plan bundle locale world
  constructor
  · exact hends.reports
  · intro hcommitted
    exact hends.follows.keeps hcommitted

end

/-- The failures of both generators are reported, and the sink stays empty. -/
theorem failures_run_assets :
    (run assetsPlan assets none assetsWorld).result =
      .failed ⟨⟨"crate::Assets"⟩, none,
        [⟨⟨"crate::Assets"⟩, some "missing", .preparing,
          .notFound "crate::Assets" "missing" ["missing.txt"]⟩,
         ⟨⟨"crate::Assets"⟩, some "absent", .preparing,
          .notFound "crate::Assets" "absent" ["absent.bin"]⟩]⟩ ∧
      ∀ files claim, MemorySink.view.held (run assetsPlan assets none assetsWorld).world.sink files claim =
        none := by
  obtain ⟨hreports, hkeeps⟩ := failures_run assetsPlan assets none assetsWorld
  have hphase : Attempt.failingPhase? (attempts assetsPlan assets none assetsWorld
      (run assetsPlan assets none assetsWorld)) = some .preparing := by decide +kernel
  have hcommitted : (run assetsPlan assets none assetsWorld).committed = false := by decide +kernel
  constructor
  · rw [hreports.diagnostics _ hphase]
    decide +kernel
  · intro files claim
    rw [(hkeeps hcommitted).sink MemorySink.view]
    rfl

end Pass

end BundleForge
