import BundleForge.Proofs.Pass.Calls
import BundleForge.Proofs.Pass.Selections
/-!
# The protocol of a pass

Generators rely on the order in which they are called, and this is the order. `Starts` says what the first
phase asks of the generators of some tasks, where an accessor is prepared only by a generator that could be
started, and `Conforms` says what a whole journal may look like: the phases follow each other as long as no
call of a phase fails, and the source is handed to the sink only after all of them. A generator is selected
when its turn begins, and may select another one for the rest of it.
-/

namespace BundleForge

def Call.request (call : Call) : GeneratorId × Step := (call.generator, call.step)

namespace Pass

/-- Each generator is started, and then asked to prepare the accessors of its task if it could be. -/
inductive Starts : List Task → Journal → Prop
  | nil : Starts [] []
  | refused {task : Task} {rest : List Task} {init : Call} {others : Journal}
      (inits : init.request = (task.kind.id, .init)) (failed : init.failure ≠ none)
      (starts : Starts rest others) : Starts (task :: rest) (init :: others)
  | started {task : Task} {rest : List Task} {init : Call} {prepares others : Journal}
      (inits : init.request = (task.kind.id, .init)) (succeeded : init.failure = none)
      (asked : prepares.map Call.request =
        task.accessors.map fun accessor => (task.kind.id, .prepare accessor))
      (starts : Starts rest others) : Starts (task :: rest) (init :: prepares ++ others)

def definitions (tasks : List Task) : List (GeneratorId × Step) :=
  tasks.map fun task => (task.kind.id, .createFields)

def assignments (tasks : List Task) : List (GeneratorId × Step) :=
  tasks.flatMap fun task => task.accessors.map fun accessor =>
    (task.kind.id, .createAssignment accessor)

def finishes (tasks : List Task) : List (GeneratorId × Step) :=
  tasks.map fun task => (task.kind.id, .finish)

/-- What the emitting phase asks for: all fields first, then all expressions. -/
def Emits (tasks : List Task) (journal : Journal) : Prop :=
  journal.map Call.request = definitions tasks ++ assignments tasks

def Finishes (tasks : List Task) (journal : Journal) : Prop :=
  journal.map Call.request = finishes tasks

/-- The calls of a pass that has these tasks, and whether the source was handed to the sink. -/
inductive Conforms (tasks : List Task) : Journal → Bool → Prop
  | preparing {preparing : Journal} (starts : Starts tasks preparing) (failed : ¬Clean preparing) :
      Conforms tasks preparing false
  | emitting {preparing emitting : Journal} (starts : Starts tasks preparing)
      (prepared : Clean preparing) (emits : Emits tasks emitting) (failed : ¬Clean emitting) :
      Conforms tasks (preparing ++ emitting) false
  | finishing {preparing emitting finishing : Journal} (starts : Starts tasks preparing)
      (prepared : Clean preparing) (emits : Emits tasks emitting) (emitted : Clean emitting)
      (finishes : Finishes tasks finishing) (failed : ¬Clean finishing) :
      Conforms tasks (preparing ++ emitting ++ finishing) false
  | committing {preparing emitting finishing : Journal} (starts : Starts tasks preparing)
      (prepared : Clean preparing) (emits : Emits tasks emitting) (emitted : Clean emitting)
      (finishes : Finishes tasks finishing) (finished : Clean finishing) :
      Conforms tasks (preparing ++ emitting ++ finishing) true

variable (context : Context)

/-! ### What each phase asks for -/

theorem requests_prepareEach (session : Session) (running : Running) (accessors : List Accessor) :
    (prepareEach context session running accessors).2.2.map Call.request =
      accessors.map fun accessor => (running.id, .prepare accessor) := by
  induction accessors generalizing session running with
  | nil => rfl
  | cons accessor rest ih =>
    rw [prepareEach, List.map_cons, List.map_cons]
    exact congrArg₂ List.cons rfl (ih _ _)

theorem starts_prepareTask (session : Session) (task : Task) {rest : List Task} {others : Journal}
    (h : Starts rest others) :
    Starts (task :: rest) ((prepareTask context session task).2.2 ++ others) := by
  unfold prepareTask
  dsimp only [Running.call]
  split
  · rename_i error herror
    apply Starts.refused rfl ?_ h
    rw [Running.entry, herror]
    simp [Running.error?]
  · rename_i hok
    apply Starts.started rfl ?_ (requests_prepareEach context _ _ _) h
    rw [Running.entry, hok]
    rfl

theorem starts_prepareAll (session : Session) (tasks : List Task) :
    Starts tasks (prepareAll context session tasks).2.2 := by
  induction tasks generalizing session with
  | nil => exact .nil
  | cons task rest ih => exact starts_prepareTask context session task (ih _)

theorem requests_createFields (session : Session) (fields : FieldRegistry)
    (generators : List Running) :
    (createFields context session fields generators).2.2.2.map Call.request =
      definitions (generators.map Running.task) := by
  induction generators generalizing session fields with
  | nil => rfl
  | cons running rest ih =>
    rw [createFields, List.map_cons]
    exact congrArg₂ List.cons rfl (ih _ _)

theorem requests_asksAll (session : Session) (generators : List Running) :
    (asksAll context session generators).map Call.request = assignments (generators.map Running.task) := by
  have hsubjects := congrArg
    (List.map fun subject : GeneratorKind × Accessor => (subject.1.id, Step.createAssignment subject.2))
    (subjects_answersAll context session generators)
  have houtcomes := congrArg (List.map fun outcome => (outcome.1, outcome.2.1))
    (outcomes_asksAll context session generators)
  rw [List.map_map, List.map_map] at houtcomes
  rw [List.map_map, List.map_flatMap] at hsubjects
  simp only [List.map_map] at hsubjects
  exact houtcomes.trans hsubjects

theorem requests_finishAll (session : Session) (generators : List Running) :
    (finishAll context session generators).2.2.map Call.request =
      finishes (generators.map Running.task) := by
  induction generators generalizing session with
  | nil => rfl
  | cons running rest ih =>
    rw [finishAll, List.map_cons]
    exact congrArg₂ List.cons rfl (ih _)

section

variable {plan : Plan} {bundle : Bundle} {locale : Option String} {session : Session}
  {tasks : List Task}

theorem emits_emitting : Emits tasks (emitting plan bundle locale session tasks) := by
  have hdefining : (defined plan bundle locale session tasks).2.2.2.map Call.request =
      definitions tasks := by
    have hrequests := requests_createFields (plan.context bundle locale)
      (prepared plan bundle locale session tasks).1 .empty
      (prepared plan bundle locale session tasks).2.1
    have htasks : (prepared plan bundle locale session tasks).2.1.map Running.task = tasks :=
      tasks_prepareAll _ session tasks
    rwa [htasks] at hrequests
  have hassigning := requests_asksAll (plan.context bundle locale)
    (defined plan bundle locale session tasks).1 (defined plan bundle locale session tasks).2.2.1
  rw [tasks_defined] at hassigning
  rw [Emits, emitting, List.map_append, hdefining]
  exact congrArg _ hassigning

theorem finishes_finishing : Finishes tasks (finishing plan bundle locale session tasks) := by
  have hfinishing := requests_finishAll (plan.context bundle locale)
    (answered plan bundle locale session tasks).1 (answered plan bundle locale session tasks).2.1
  rwa [tasks_answered] at hfinishing

theorem Course.conforms {work : Work} (h : Course plan bundle locale session tasks work) :
    Conforms tasks work.journal work.result.isOk := by
  have hstarts : Starts tasks (Pass.preparing plan bundle locale session tasks) :=
    starts_prepareAll _ session tasks
  cases h with
  | preparing failed => exact .preparing hstarts failed
  | emitting prepare failed => exact .emitting hstarts prepare emits_emitting failed
  | finishing prepare emit failed =>
    exact .finishing hstarts prepare emits_emitting emit finishes_finishing failed
  | done prepare emit finish =>
    exact .committing hstarts prepare emits_emitting emit finishes_finishing finish

end

/-! ### Whole passes -/

section

variable {σ : Type} [Sink σ] (plan : Plan) (bundle : Bundle) (locale : Option String)
  (world : World σ)

/-- The sink grants the type, and every accessor has a generator. -/
def Admits : Prop :=
  (∃ claim, (Sink.claim world.sink (wanted bundle locale)).1 = .ok (some claim)) ∧
    ∀ accessor ∈ bundle.accessors, ∃ kind,
      plan.registry.resolve plan.hierarchy accessor.kind = .ok kind

/-- The world after a pass, given the session its generators left: the sink has been asked for the type, and
once more to take the source if that was handed to it. -/
inductive Leaves (session : Session) : Bool → World σ → Prop
  | uncommitted :
      Leaves session false
        ⟨session.files, session.finder, (Sink.claim world.sink (wanted bundle locale)).2⟩
  | committed {claim : Claim} {sink : σ} (source : String)
      (claimed : Sink.claim world.sink (wanted bundle locale) = (.ok (some claim), sink)) :
      Leaves session true
        ⟨(Sink.commit sink session.files claim source).2.1, session.finder,
          (Sink.commit sink session.files claim source).2.2⟩

/-- The tasks of a bundle: one for each generator that is needed, in the order in which they are first
needed, with the accessors the generator serves in the order of their declaration. -/
structure Dispatches : Prop where
  ids : (tasksOf plan bundle).map (·.kind.id) =
    (bundle.accessors.filterMap (Dispatch.idFor plan.registry plan.hierarchy)).eraseDups
  distinct : ((tasksOf plan bundle).map (·.kind.id)).Nodup
  accessors : ∀ task ∈ tasksOf plan bundle, task.accessors = bundle.accessors.filter
    (Dispatch.idFor plan.registry plan.hierarchy · = some task.kind.id)

/-- The calls of a pass are those of the protocol. None is made unless the pass is admitted, and each accessor is
then in one task. -/
structure Follows (pass : Pass σ) : Prop where
  refused : ¬Admits plan bundle locale world → pass.journal = [] ∧ pass.committed = false
  served : Admits plan bundle locale world →
    ((tasksOf plan bundle).flatMap (·.accessors)).Perm bundle.accessors
  conforms : Admits plan bundle locale world →
    Conforms (tasksOf plan bundle) pass.journal pass.committed
  selects : Selects pass.journal
  /-- While no generator selects another one, every generator is selected whenever it is called. -/
  active : (∀ call ∈ pass.journal, call.active = some call.generator → call.left = some call.generator) →
    ∀ call ∈ pass.journal, call.active = some call.generator
  made : ∃ last,
    Makes (plan.context bundle locale) (.fresh (opening world) (tasksOf plan bundle)) pass.journal last ∧
      Leaves bundle locale world last.session pass.committed pass.world

end

section

variable {σ : Type} [Sink σ] {plan : Plan} {bundle : Bundle} {locale : Option String}
  {world : World σ}

theorem dispatches (plan : Plan) (bundle : Bundle) : Dispatches plan bundle where
  ids := Dispatch.ids_foldl_add plan.registry plan.hierarchy bundle.accessors
  distinct := (Dispatch.grouped_ofBundle plan.registry plan.hierarchy bundle).nodup_ids
  accessors := (Dispatch.grouped_ofBundle plan.registry plan.hierarchy bundle).accessors_eq

theorem admits_iff {granted : Except ResourceError (Option Claim)} {sink : σ}
    (h : Sink.claim world.sink (wanted bundle locale) = (granted, sink)) :
    Admits plan bundle locale world ↔ (∃ claim, granted = .ok (some claim)) ∧
      (Dispatch.ofBundle plan.registry plan.hierarchy bundle).refused = [] := by
  rw [Admits, h, Dispatch.refused_eq_nil_iff]

theorem not_admits_of_claim {granted : Except ResourceError (Option Claim)} {sink : σ}
    (h : Sink.claim world.sink (wanted bundle locale) = (granted, sink))
    (hnone : ∀ claim, granted ≠ .ok (some claim)) : ¬Admits plan bundle locale world := by
  intro hadmits
  obtain ⟨⟨claim, hgranted⟩, -⟩ := (admits_iff h).1 hadmits
  exact hnone claim hgranted

theorem follows_of_not_admits (h : ¬Admits plan bundle locale world) (result : PassResult) :
    Follows plan bundle locale world
      { world := { world with sink := (Sink.claim world.sink (wanted bundle locale)).2 }
        result
        journal := []
        committed := false } where
  refused _ := ⟨rfl, rfl⟩
  served hadmits := absurd hadmits h
  conforms hadmits := absurd hadmits h
  selects := ⟨by simp, .nil⟩
  active _ _ hcall := absurd hcall List.not_mem_nil
  made := ⟨_, .nil _, .uncommitted⟩

theorem follows_of_admits (h : Admits plan bundle locale world) {pass : Pass σ}
    (hjournal : pass.journal = (worked plan bundle locale world).journal)
    (hcommitted : pass.committed = (worked plan bundle locale world).result.isOk)
    (hleaves : Leaves bundle locale world (worked plan bundle locale world).session pass.committed
      pass.world) : Follows plan bundle locale world pass := by
  have hcourse := course_work plan bundle locale (opening world) (tasksOf plan bundle)
  obtain ⟨last, hmakes, hlast⟩ := hcourse.makes
  have hselects := hcourse.selects (dispatches plan bundle).distinct
  constructor
  · intro hrefused
    exact absurd h hrefused
  · intro hadmits
    exact Dispatch.perm_foldl_add hadmits.2
  · intro hadmits
    rw [hjournal, hcommitted]
    exact hcourse.conforms
  · rw [hjournal]
    exact hselects
  · rw [hjournal]
    exact hselects.active
  · rw [hjournal]
    refine ⟨last, hmakes, ?_⟩
    rw [hlast]
    exact hleaves

theorem Ends.follows {pass : Pass σ} (h : Ends plan bundle locale world pass) :
    Follows plan bundle locale world pass := by
  cases h with
  | @unclaimed error sink claimed =>
    have hrefused : ¬Admits plan bundle locale world := not_admits_of_claim claimed (by simp)
    simpa only [claimed] using follows_of_not_admits hrefused _
  | @skipped sink claimed =>
    have hrefused : ¬Admits plan bundle locale world := not_admits_of_claim claimed (by simp)
    simpa only [claimed] using follows_of_not_admits hrefused _
  | @refused claim sink claimed refused =>
    have hrefused : ¬Admits plan bundle locale world := by
      rw [admits_iff claimed]
      exact fun hadmits => refused hadmits.2
    simpa only [claimed] using follows_of_not_admits hrefused _
  | @stopped claim sink diagnostics claimed admitted failed =>
    have hadmits : Admits plan bundle locale world := (admits_iff claimed).2 ⟨⟨claim, rfl⟩, admitted⟩
    apply follows_of_admits hadmits rfl
    · rw [failed]
      rfl
    · have hleaves : Leaves bundle locale world (worked plan bundle locale world).session false _ :=
        .uncommitted
      rwa [claimed] at hleaves
  | @unwritten claim sink next source error files claimed admitted made refused =>
    have hadmits : Admits plan bundle locale world := (admits_iff claimed).2 ⟨⟨claim, rfl⟩, admitted⟩
    apply follows_of_admits hadmits rfl
    · rw [made]
      rfl
    · have hleaves : Leaves bundle locale world (worked plan bundle locale world).session true _ :=
        .committed source claimed
      rwa [refused] at hleaves
  | @generated claim sink next source path files claimed admitted made taken =>
    have hadmits : Admits plan bundle locale world := (admits_iff claimed).2 ⟨⟨claim, rfl⟩, admitted⟩
    apply follows_of_admits hadmits rfl
    · rw [made]
      rfl
    · have hleaves : Leaves bundle locale world (worked plan bundle locale world).session true _ :=
        .committed source claimed
      rwa [taken] at hleaves

/-- Every pass follows the protocol. -/
theorem follows_run (plan : Plan) (bundle : Bundle) (locale : Option String)
    (world : World σ) :
    Dispatches plan bundle ∧
      Follows plan bundle locale world (run plan bundle locale world) :=
  ⟨dispatches plan bundle, (ends_run plan bundle locale world).follows⟩

end

def assets : Bundle where
  name := ⟨"crate::Assets"⟩
  package := "assets"
  accessors :=
    [{ name := "present", kind := .textResource },
     { name := "missing", kind := .textResource, source := some ["missing.txt"] },
     { name := "absent", kind := .dataResource, source := some ["absent.bin"] }]

def assetsPlan : Plan := { hierarchy := .builtin, bundles := .empty }

def assetsWorld : World MemorySink where
  files := .empty
  finder := ({} : Finder).embed "assets/present.txt" [104, 101, 114, 101]
  sink := {}

/-- Every accessor is prepared, and nothing else is asked for afterwards. -/
theorem follows_run_assets : Admits assetsPlan assets none assetsWorld ∧
    Conforms (tasksOf assetsPlan assets) (run assetsPlan assets none assetsWorld).journal false ∧
    (run assetsPlan assets none assetsWorld).journal.map (·.step.accessor?.map (·.name)) =
      [none, some "present", some "missing", none, some "absent"] := by
  have hadmits : Admits assetsPlan assets none assetsWorld := by
    have hclaimed : Sink.claim assetsWorld.sink (wanted assets none) =
        (.ok (some (wanted assets none)), { claimed := ["crate::AssetsImpl"] }) := rfl
    refine (admits_iff hclaimed).2 ⟨⟨_, rfl⟩, ?_⟩
    decide +kernel
  have hcommitted : (run assetsPlan assets none assetsWorld).committed = false := by decide +kernel
  have hconforms := (follows_run assetsPlan assets none assetsWorld).2.conforms hadmits
  rw [hcommitted] at hconforms
  exact ⟨hadmits, hconforms, by decide +kernel⟩

/-- A generator that selects another one while it prepares an accessor. -/
def strayingKind : GeneratorKind where
  id := ⟨"straying"⟩
  generator :=
    { Memory := Unit
      fresh := ()
      prepare := fun _ _ _ session memory => (.ok (), session.select ⟨"text"⟩, memory)
      createAssignment := fun _ _ _ session memory => (.ok "", session, memory) }

def strayingPlan : Plan :=
  { hierarchy := .builtin, bundles := .empty, registry := ⟨.ofList [(.textResource, strayingKind)], .bundle⟩ }

def strays : Bundle where
  name := ⟨"crate::Strays"⟩
  accessors := [{ name := "first", kind := .textResource }, { name := "second", kind := .textResource }]

/-- A generator that selects another one is not the selected one when the next accessor is prepared. -/
theorem not_forall_active : ¬ ∀ (plan : Plan) (bundle : Bundle) (locale : Option String) (world : World MemorySink),
    ∀ call ∈ (run plan bundle locale world).journal, call.active = some call.generator := by
  intro h
  have hactive := h strayingPlan strays none assetsWorld
  have hjournal : (run strayingPlan strays none assetsWorld).journal.map (fun call => (call.generator, call.active)) =
      [(strayingKind.id, some strayingKind.id), (strayingKind.id, some strayingKind.id),
       (strayingKind.id, some ⟨"text"⟩), (strayingKind.id, some strayingKind.id),
       (strayingKind.id, some strayingKind.id), (strayingKind.id, some strayingKind.id),
       (strayingKind.id, some strayingKind.id)] := by decide +kernel
  have hnever : ∀ entry ∈ (run strayingPlan strays none assetsWorld).journal.map
      (fun call => (call.generator, call.active)), entry.2 = some entry.1 := by
    intro entry hentry
    obtain ⟨call, hcall, rfl⟩ := List.mem_map.1 hentry
    exact hactive call hcall
  rw [hjournal] at hnever
  exact absurd (hnever _ (.tail _ (.tail _ (.head _)))) (by decide)

end Pass

end BundleForge
