import BundleForge.Proofs.Pass.Failures
import BundleForge.Proofs.Pass.Handlings
/-!
# What a pass leaves in the deployment directory

Payloads are deployed while accessors are prepared, long before it is known whether the pass will succeed, and
what was deployed is not taken back. So a pass that fails leaves the sink and the sources as they were, but
not the files: there is one more for every payload that was written on the way.
-/

namespace BundleForge

open FileSystem (Puts IsSource SameFiles)

namespace Pass

variable {context : Context}

/-- The files that are put while some accessors are prepared are those of the payloads that are written. -/
structure Deposits (context : Context) (handlings : List Handling) (files later : FileSystem)
    (written : List (Place × Bytes)) : Prop where
  puts : Puts files written later
  sound : ∀ place content, (place, content) ∈ written → ¬ IsSource place ∧
    ∃ handling ∈ handlings, ∃ resource path,
      handling.Writes context resource path ∧ content = resource.bytes ∧
        later.locate path = .ok place
  complete : ∀ handling ∈ handlings, ∀ resource path,
    handling.Writes context resource path →
      ∃ place content, (place, content) ∈ written ∧ later.locate path = .ok place

theorem Deposits.nil (files : FileSystem) : Deposits context [] files files [] where
  puts := .nil files
  sound _ _ hmem := absurd hmem List.not_mem_nil
  complete _ hmem := absurd hmem List.not_mem_nil

theorem Deposits.append {first second : List Handling} {files middle later : FileSystem}
    {written more : List (Place × Bytes)} (h : Deposits context first files middle written)
    (h' : Deposits context second middle later more) :
    Deposits context (first ++ second) files later (written ++ more) where
  puts := h.puts.append h'.puts
  sound place content hmem := by
    rcases List.mem_append.1 hmem with hfirst | hsecond
    · obtain ⟨hplace, handling, hhandling, resource, path, hwrites, hcontent, hlocate⟩ :=
        h.sound place content hfirst
      exact ⟨hplace, handling, List.mem_append_left _ hhandling, resource, path, hwrites, hcontent,
        h'.puts.grows.locate hlocate⟩
    · obtain ⟨hplace, handling, hhandling, hrest⟩ := h'.sound place content hsecond
      exact ⟨hplace, handling, List.mem_append_right _ hhandling, hrest⟩
  complete handling hmem resource path hwrites := by
    rcases List.mem_append.1 hmem with hfirst | hsecond
    · obtain ⟨place, content, hwritten, hlocate⟩ := h.complete handling hfirst resource path hwrites
      exact ⟨place, content, List.mem_append_left _ hwritten, h'.puts.grows.locate hlocate⟩
    · obtain ⟨place, content, hwritten, hlocate⟩ := h'.complete handling hsecond resource path hwrites
      exact ⟨place, content, List.mem_append_right _ hwritten, hlocate⟩

theorem Deposits.unwritten {handling : Handling} {later : FileSystem}
    (hputs : Puts handling.session.files [] later)
    (hnone : ∀ resource path,
      ¬ handling.Writes context resource path) :
    Deposits context [handling] handling.session.files later [] where
  puts := hputs
  sound _ _ hmem := absurd hmem List.not_mem_nil
  complete other hother resource path hwrites := by
    obtain rfl := List.mem_singleton.1 hother
    exact absurd hwrites (hnone resource path)

theorem deposits_next (context : Context) (handling : Handling)
    (hkind : handling.running.kind ∈ GeneratorKind.builtIn) :
    ∃ written, Deposits context [handling] handling.session.files
      (handling.next context) written := by
  rcases Handling.steps context hkind with
    ⟨resource, hands, hnext⟩ | ⟨hidle, hnext⟩
  · rw [hnext]
    cases hdeployment : context.deployment with
    | inline =>
      refine ⟨[], .unwritten (.nil _) fun other path hwrites => ?_⟩
      obtain ⟨dir, urlPrefix, hexternal, -⟩ := hwrites.written
      rw [hdeployment] at hexternal
      exact Deployment.noConfusion hexternal
    | external dir urlPrefix =>
      have hwritten : ∀ {other path}, handling.Writes context other path →
          other = resource ∧ path = Deployment.payloadPath dir resource.fileName resource.bytes ∧
            Deployment.Writes handling.session.files dir resource.fileName resource.bytes := by
        intro other path hwrites
        obtain rfl := hands.unique hwrites.hands
        obtain ⟨_, _, hexternal, hpath, hstored⟩ := hwrites.written
        rw [hdeployment] at hexternal
        obtain ⟨rfl, rfl⟩ := Deployment.external.inj hexternal
        exact ⟨rfl, hpath, hstored⟩
      rcases Deployment.puts_store handling.session.files dir resource.fileName resource.bytes with
        ⟨hstored, place, hplace, hlocate, hputs⟩ | ⟨hstored, hputs⟩
      · refine ⟨[(place, resource.bytes)], hputs, fun _ _ hmem => ?_, ?_⟩
        · obtain ⟨rfl, rfl⟩ := Prod.mk.inj (List.mem_singleton.1 hmem)
          exact ⟨hplace, handling, List.mem_singleton_self _, resource, _,
            ⟨hands, dir, urlPrefix, hdeployment, rfl, hstored⟩, rfl, hlocate⟩
        · intro other hother other' path hwrites
          obtain rfl := List.mem_singleton.1 hother
          obtain ⟨-, rfl, -⟩ := hwritten hwrites
          exact ⟨place, resource.bytes, List.mem_singleton_self _, hlocate⟩
      · exact ⟨[], .unwritten hputs fun other path hwrites => hstored (hwritten hwrites).2.2⟩
  · rw [hnext]
    exact ⟨[], .unwritten (.nil _) fun resource path hwrites => hidle resource hwrites.hands⟩

/-! ### The phases -/

variable (context)

def handlingEach (session : Session) (running : Running) : List Accessor → List Handling
  | [] => []
  | accessor :: rest =>
    let (_, next, called, _) :=
      running.call (.prepare accessor) context session
        (running.kind.generator.prepare accessor (accessor.effectiveLocale context.locale))
    ⟨running, accessor, session⟩ :: handlingEach next called rest

def handlingTask (session : Session) (task : Task) : List Handling :=
  let running := Running.ofTask task
  let (result, started, called, _) :=
    running.call .init context (session.select running.id) running.kind.generator.init
  match result with
  | .error _ => []
  | .ok () => handlingEach context started called called.accessors

/-- The accessors that are prepared for some tasks. -/
def handlingAll (session : Session) : List Task → List Handling
  | [] => []
  | task :: rest =>
    handlingTask context session task ++ handlingAll (prepareTask context session task).1 rest

theorem deposits_prepareEach {session : Session} {running : Running}
    (hkind : running.kind ∈ GeneratorKind.builtIn) (accessors : List Accessor) :
    ∃ written, Deposits context (handlingEach context session running accessors) session.files
      (prepareEach context session running accessors).1.files written := by
  induction accessors generalizing session running with
  | nil => exact ⟨[], .nil _⟩
  | cons accessor rest ih =>
    let called := running.call (.prepare accessor) context session
      (running.kind.generator.prepare accessor
        (accessor.effectiveLocale context.locale))
    have hcalled : called.2.2.1.kind ∈ GeneratorKind.builtIn := hkind
    obtain ⟨written, hfirst⟩ := deposits_next context ⟨running, accessor, session⟩ hkind
    obtain ⟨more, hrest⟩ := @ih called.2.1 called.2.2.1 hcalled
    exact ⟨written ++ more, hfirst.append hrest⟩

end Pass

theorem Running.files_perform {running : Running} (hkind : running.kind ∈ GeneratorKind.builtIn)
    (context : Context) (session : Session) (fields : FieldRegistry) {step : Step}
    (hstep : ∀ accessor, step ≠ .prepare accessor) :
    (running.perform context session fields step).session.files = session.files := by
  obtain ⟨kind, memory, served⟩ := running
  simp only [GeneratorKind.builtIn, List.mem_cons, List.not_mem_nil, or_false] at hkind
  cases step with
  | prepare accessor => exact absurd rfl (hstep accessor)
  | init =>
    rcases hkind with rfl | rfl | rfl | rfl
    · rfl
    · rfl
    · dsimp only [perform, settle, GeneratorKind.image, Generator.image]
      split <;> rename_i hobtain <;>
        exact (congrArg (fun r => r.2.files) hobtain.symm).trans (session.files_obtain ..)
    · rfl
  | createFields =>
    rcases hkind with rfl | rfl | rfl | rfl
    · rfl
    · rfl
    · dsimp only [perform, settle, GeneratorKind.image, Generator.image]
      split
      · rfl
      · rw [Generator.run_bind]
        rfl
    · rfl
  | createAssignment accessor =>
    rcases hkind with rfl | rfl | rfl | rfl
    · dsimp only [perform, settle, GeneratorKind.text, Generator.text]
      split <;> rfl
    · dsimp only [perform, settle, GeneratorKind.data, Generator.data]
      split <;> rfl
    · rfl
    · rfl
  | finish => rcases hkind with rfl | rfl | rfl | rfl <;> rfl

namespace Pass

theorem deposits_prepareTask (context : Context) (session : Session) {task : Task}
    (hkind : task.kind ∈ GeneratorKind.builtIn) :
    ∃ written, Deposits context (handlingTask context session task) session.files
      (prepareTask context session task).1.files written := by
  have hstep : ∀ accessor, Step.init ≠ .prepare accessor := fun _ h => Step.noConfusion h
  have hinit := (Running.ofTask task).files_perform hkind context (session.select task.kind.id) .empty hstep
  unfold handlingTask prepareTask
  rcases hcalled : (Running.ofTask task).call .init context (session.select (Running.ofTask task).id)
    (Running.ofTask task).kind.generator.init with ⟨result, started, called, entry⟩
  have hfiles : started.files = session.files :=
    (congrArg (fun r => r.2.1.files) hcalled).symm.trans hinit
  have hrunning : called.kind = task.kind := (congrArg (fun r => r.2.2.1.kind) hcalled).symm
  rw [← hfiles]
  cases result with
  | error error =>
    simp only [hcalled]
    exact ⟨[], .nil _⟩
  | ok =>
    simp only [hcalled]
    exact deposits_prepareEach context (hrunning ▸ hkind) _

theorem deposits_prepareAll (context : Context) (session : Session) {tasks : List Task}
    (hkinds : ∀ task ∈ tasks, task.kind ∈ GeneratorKind.builtIn) :
    ∃ written, Deposits context (handlingAll context session tasks) session.files
      (prepareAll context session tasks).1.files written := by
  induction tasks generalizing session with
  | nil => exact ⟨[], .nil _⟩
  | cons task rest ih =>
    rw [List.forall_mem_cons] at hkinds
    obtain ⟨written, hfirst⟩ := deposits_prepareTask context session hkinds.1
    obtain ⟨more, hrest⟩ := ih (prepareTask context session task).1 hkinds.2
    exact ⟨written ++ more, hfirst.append hrest⟩

theorem Makes.files {context : Context} {bench last : Bench} {journal : Journal}
    (h : Makes context bench journal last)
    (hkinds : ∀ running ∈ bench.generators, running.kind ∈ GeneratorKind.builtIn)
    (hjournal : ∀ call ∈ journal, ∀ accessor, call.step ≠ .prepare accessor) :
    last.session.files = bench.session.files := by
  induction h with
  | nil bench => rfl
  | select id rest ih => exact ih hkinds hjournal
  | @call session fields before after running performed journal last step performs rest ih =>
    rw [List.forall_mem_append, List.forall_mem_cons] at hkinds
    obtain ⟨hbefore, hrunning, hafter⟩ := hkinds
    rw [List.forall_mem_cons] at hjournal
    subst performs
    rw [ih ?_ hjournal.2]
    · exact running.files_perform hrunning _ _ _ hjournal.1
    · rw [List.forall_mem_append, List.forall_mem_cons, Running.kind_perform]
      exact ⟨hbefore, hrunning, hafter⟩

theorem step_of_request {journal : Journal} {requests : List (GeneratorId × Step)}
    (hjournal : journal.map Call.request = requests)
    (hrequests : ∀ request ∈ requests, ∀ accessor, request.2 ≠ .prepare accessor) :
    ∀ call ∈ journal, ∀ accessor, call.step ≠ .prepare accessor := by
  intro call hcall
  exact hrequests call.request (hjournal ▸ List.mem_map_of_mem hcall)

theorem kinds_of_tasks {generators : List Running} {tasks : List Task}
    (htasks : generators.map Running.task = tasks)
    (hkinds : ∀ task ∈ tasks, task.kind ∈ GeneratorKind.builtIn) :
    ∀ running ∈ [] ++ generators, running.kind ∈ GeneratorKind.builtIn := by
  intro running hrunning
  exact hkinds running.task (htasks ▸ List.mem_map_of_mem hrunning)

section

variable {plan : Plan} {bundle : Bundle} {locale : Option String} {session : Session}
  {tasks : List Task}

theorem files_answered (hkinds : ∀ task ∈ tasks, task.kind ∈ GeneratorKind.builtIn) :
    (answered plan bundle locale session tasks).1.files =
      (prepared plan bundle locale session tasks).1.files := by
  have hdefining := makes_createFields (plan.context bundle locale)
    (prepared plan bundle locale session tasks).1 .empty
    (prepared plan bundle locale session tasks).2.1 []
  have hassigning := makes_answersAll (plan.context bundle locale)
    (defined plan bundle locale session tasks).1 (defined plan bundle locale session tasks).2.1
    (defined plan bundle locale session tasks).2.2.1 []
  apply (hdefining.append hassigning).files
  · exact kinds_of_tasks (tasks_prepareAll _ session tasks) hkinds
  · apply step_of_request emits_emitting
    intro request hrequest accessor
    rw [List.mem_append, definitions, assignments, List.mem_map, List.mem_flatMap] at hrequest
    rcases hrequest with ⟨task, -, rfl⟩ | ⟨task, -, hassigned⟩
    · exact fun h => Step.noConfusion h
    · obtain ⟨other, -, rfl⟩ := List.mem_map.1 hassigned
      exact fun h => Step.noConfusion h

theorem files_finished (hkinds : ∀ task ∈ tasks, task.kind ∈ GeneratorKind.builtIn) :
    (finished plan bundle locale session tasks).1.files =
      (answered plan bundle locale session tasks).1.files := by
  have hfinishing := makes_finishAll (plan.context bundle locale)
    (answered plan bundle locale session tasks).1 .empty
    (answered plan bundle locale session tasks).2.1 []
  apply hfinishing.files
  · exact kinds_of_tasks (tasks_answered plan bundle locale session tasks) hkinds
  · apply step_of_request finishes_finishing
    intro request hrequest accessor
    rw [finishes, List.mem_map] at hrequest
    obtain ⟨task, -, rfl⟩ := hrequest
    exact fun h => Step.noConfusion h

/-- Whatever phase is the last one, the files are those that preparing left. -/
theorem Course.files {work : Work} (h : Course plan bundle locale session tasks work)
    (hkinds : ∀ task ∈ tasks, task.kind ∈ GeneratorKind.builtIn) :
    work.session.files = (prepared plan bundle locale session tasks).1.files := by
  cases h with
  | preparing _ => rfl
  | emitting _ _ => exact files_answered hkinds
  | finishing _ _ _ => exact (files_finished hkinds).trans (files_answered hkinds)
  | done _ _ _ => exact (files_finished hkinds).trans (files_answered hkinds)

end

/-! ### Failed passes -/

section

variable {σ : Type} [Sink σ] (plan : Plan) (bundle : Bundle) (locale : Option String)
  (world : World σ)

/-- The accessors that are prepared in a pass, if it is granted its type and refuses no accessor. -/
def handlings : List Handling :=
  match (Sink.claim world.sink (wanted bundle locale)).1,
    (Dispatch.ofBundle plan.registry plan.hierarchy bundle).refused with
  | .ok (some _), [] =>
    handlingAll (plan.context bundle locale) (opening world) (tasksOf plan bundle)
  | _, _ => []

/-- The payload of a resource is written in a pass, under some path. -/
def Writes (resource : Resource) (path : Path) : Prop :=
  ∃ handling ∈ handlings plan bundle locale world,
    handling.Writes (plan.context bundle locale) resource path

/-- What a pass leaves that has not committed its source. The sink holds what it held, and so do the files
with names of sources. Any other file is what it was, or has the payload of a resource that was written; and
whatever was written is there. -/
structure Remains (pass : Pass σ) : Prop where
  sink : ∀ view : Sink.View σ, view.held pass.world.sink = view.held world.sink
  sources : ∀ place content, IsSource place →
    (pass.world.files.node? place = some (.file content) ↔
      world.files.node? place = some (.file content))
  kept : ∀ place content, world.files.node? place = some (.file content) →
    ∃ content, pass.world.files.node? place = some (.file content)
  files : ∀ place content, pass.world.files.node? place = some (.file content) →
    world.files.node? place = some (.file content) ∨
      ∃ resource path, Writes plan bundle locale world resource path ∧ content = resource.bytes ∧
        pass.world.files.locate path = .ok place
  unchanged_iff : SameFiles world.files pass.world.files ↔
    ∀ resource path, Writes plan bundle locale world resource path →
      ∃ place content, pass.world.files.locate path = .ok place ∧
        pass.world.files.node? place = some (.file content) ∧
          world.files.node? place = some (.file content)

variable {plan bundle locale world}

theorem Ends.deposits {pass : Pass σ} (h : Ends plan bundle locale world pass)
    (hcommitted : pass.committed = false) (hbuiltIn : plan.registry.BuiltIn) :
    ∃ written, Deposits (plan.context bundle locale) (handlings plan bundle locale world)
      world.files pass.world.files written := by
  have hkinds : ∀ task ∈ tasksOf plan bundle, task.kind ∈ GeneratorKind.builtIn := hbuiltIn.kind_mem
  unfold handlings
  cases h with
  | unclaimed claimed =>
    rw [claimed]
    exact ⟨[], .nil _⟩
  | skipped claimed =>
    rw [claimed]
    exact ⟨[], .nil _⟩
  | refused claimed refused =>
    rw [claimed]
    split
    · rename_i hnone
      exact absurd hnone refused
    · exact ⟨[], .nil _⟩
  | stopped claimed admitted failed =>
    rw [claimed, admitted]
    have hcourse := course_work plan bundle locale (opening world) (tasksOf plan bundle)
    dsimp only [worked]
    rw [hcourse.files hkinds]
    exact deposits_prepareAll (plan.context bundle locale) (opening world) hkinds
  | unwritten _ _ _ _ => exact Bool.noConfusion hcommitted
  | generated _ _ _ _ => exact Bool.noConfusion hcommitted

theorem Deposits.unchanged_iff {context : Context} {handlings : List Handling}
    {files later : FileSystem} {written : List (Place × Bytes)}
    (h : Deposits context handlings files later written) :
    SameFiles files later ↔
      ∀ resource path, (∃ handling ∈ handlings,
        handling.Writes context resource path) →
        ∃ place content, later.locate path = .ok place ∧
          later.node? place = some (.file content) ∧ files.node? place = some (.file content) := by
  constructor
  · rintro hsame resource path ⟨handling, hmem, hwrites⟩
    obtain ⟨place, content, hwritten, hlocate⟩ := h.complete handling hmem resource path hwrites
    obtain ⟨content', hcontent⟩ := h.puts.exists_file_of_mem hwritten
    exact ⟨place, content', hlocate, hcontent, (hsame place content').1 hcontent⟩
  · intro hback place content
    by_cases hplace : ∃ other, (place, other) ∈ written
    · -- Something was put here, and it is what was here before.
      obtain ⟨other, hmem⟩ := hplace
      obtain ⟨-, handling, hhandling, resource, path, hwrites, -, hlocate⟩ :=
        h.sound place other hmem
      obtain ⟨place', content', hlocate', hlater, hfiles⟩ :=
        hback resource path ⟨handling, hhandling, hwrites⟩
      obtain rfl := Except.ok.inj (hlocate.symm.trans hlocate')
      rw [hlater, hfiles]
    · rw [not_exists] at hplace
      constructor
      · intro hlater
        exact (h.puts.file_or_mem hlater).resolve_right (hplace content)
      · intro hfiles
        exact h.puts.node?_of_not_mem hfiles (Or.inr hplace)

/-- A pass that has not committed its source leaves the payloads it has deployed, and nothing else. -/
theorem remains_run (hbuiltIn : plan.registry.BuiltIn)
    (hcommitted : (run plan bundle locale world).committed = false) :
    Remains plan bundle locale world (run plan bundle locale world) := by
  have hends := ends_run plan bundle locale world
  obtain ⟨written, hdeposits⟩ := hends.deposits hcommitted hbuiltIn
  constructor
  · exact (hends.follows.keeps hcommitted).sink
  · intro place content hsource
    have hnone : ∀ content, (place, content) ∉ written :=
      fun content hmem => (hdeposits.sound place content hmem).1 hsource
    constructor
    · intro hlater
      exact (hdeposits.puts.file_or_mem hlater).resolve_right (hnone content)
    · intro hfiles
      exact hdeposits.puts.node?_of_not_mem hfiles (Or.inr hnone)
  · intro place content hfiles
    exact hdeposits.puts.exists_file hfiles
  · intro place content hlater
    apply (hdeposits.puts.file_or_mem hlater).imp_right
    intro hmem
    obtain ⟨-, handling, hhandling, resource, path, hwrites, hcontent, hlocate⟩ :=
      hdeposits.sound place content hmem
    exact ⟨resource, path, ⟨handling, hhandling, hwrites⟩, hcontent, hlocate⟩
  · exact hdeposits.unchanged_iff

end

/-- A payload that is deployed, and a resource that is missing. -/
def mixed : Bundle where
  name := ⟨"crate::Mixed"⟩
  accessors :=
    [{ name := "payload", kind := .dataResource, source := some ["payload.bin"], embed := false },
     { name := "missing", kind := .textResource, source := some ["missing.txt"] }]

def mixedPlan : Plan :=
  { hierarchy := .builtin, bundles := .empty, deployment := .external ⟨"/public"⟩ "" }

def mixedWorld : World MemorySink where
  files := .empty
  finder := ({} : Finder).embed "payload.bin" [1]
  sink := {}

/-- The pass fails because of the missing resource, and leaves the file of the payload. -/
theorem remains_run_mixed :
    (run mixedPlan mixed none mixedWorld).result = failWith mixed none
      [⟨⟨"crate::Mixed"⟩, some "missing", .preparing,
        .notFound "crate::Mixed" "missing" ["missing.txt"]⟩] ∧
    (∃ resource path, Writes mixedPlan mixed none mixedWorld resource path ∧ [1] = resource.bytes ∧
      (run mixedPlan mixed none mixedWorld).world.files.locate path =
        .ok ["4bf5122f344554c53bde2ebb8cd2b7e3.bin", "public"]) ∧
    ¬ SameFiles mixedWorld.files (run mixedPlan mixed none mixedWorld).world.files := by
  have hcommitted : (run mixedPlan mixed none mixedWorld).committed = false := by decide +kernel
  have hfile : (run mixedPlan mixed none mixedWorld).world.files.node?
      ["4bf5122f344554c53bde2ebb8cd2b7e3.bin", "public"] = some (.file [1]) := by decide +kernel
  have hremains := remains_run Registry.builtIn_standard hcommitted
  refine ⟨by decide +kernel, ?_, fun hsame => ?_⟩
  · exact (hremains.files _ _ hfile).resolve_left (by decide)
  · have hbefore := (hsame _ _).1 hfile
    exact absurd hbefore (by decide)

end Pass

end BundleForge
