import BundleForge.Proofs.Oblivious
import BundleForge.Proofs.Pass.Deposits
import BundleForge.Proofs.Reorder
/-!
# Passes and what finders remember

Two passes that start in sessions with the same files and the same search path go through the same phases, step
by step: whatever the finders remember, every call comes to the same result, and after every call the two
sessions differ in nothing else again. So the work of a pass is decided by the files and the search path. This
holds of passes of two plans, too, whose declarations only stand in another order.
-/

namespace BundleForge.Pass

variable {files : FileSystem} {search : SearchPath} {context context' : Context}
  {session session' : Session}

/-- The contexts of two passes over the same bundle that embed their payloads. -/
structure Beside (context context' : Context) : Prop where
  agrees : context.Agrees context'
  inline : context.deployment = .inline

/-- What two phases have come to: the same, in sessions that differ at most in what finders remember. -/
structure Level {α : Type*} (files : FileSystem) (search : SearchPath) (reached other : Session × α) :
    Prop where
  session : Session.Same files search reached.1 other.1
  same : reached.2 = other.2

theorem Level.map {α β : Type*} {reached other : Session × α} (h : Level files search reached other)
    (f : α → β) : Level files search (reached.1, f reached.2) (other.1, f other.2) :=
  ⟨h.session, congrArg f h.same⟩

theorem Level.split {α : Type*} {reached other : Session × α} (h : Level files search reached other) :
    ∃ next next' result, reached = (next, result) ∧ other = (next', result) ∧
      Session.Same files search next next' :=
  ⟨_, _, _, rfl, Prod.ext rfl h.same.symm, h.session⟩

theorem Beside.indistinct (h : Beside context context') (hsame : Session.Same files search session session') :
    Indistinct files search context context' session session' :=
  ⟨h.agrees, h.inline, hsame⟩

/-- Two calls with the same outcome are noted alike and leave the generator alike. -/
theorem exists_called {α : Type} (running : Running) (step : Step)
    {work work' : Context → Session → running.kind.generator.Memory →
      Outcome running.kind.generator.Memory α}
    (hsame : Session.Same files search session session')
    (h : Outcome.Same files search (work context session running.memory)
      (work' context' session' running.memory)) :
    ∃ result next next' called entry,
      running.call step context session work = (result, next, called, entry) ∧
      running.call step context' session' work' = (result, next', called, entry) ∧
      Session.Same files search next next' ∧ called.kind = running.kind := by
  obtain ⟨hresult, hsession, hmemory⟩ := h
  refine ⟨_, _, _, _, _, rfl, ?_, hsession, rfl⟩
  unfold Running.call Running.entry
  dsimp only
  rw [hresult, hmemory, hsame.active, hsession.active]

section

variable (hbeside : Beside context context')

include hbeside

theorem level_prepareEach {running : Running} (hkind : running.kind.generator.Oblivious)
    (hsame : Session.Same files search session session') (accessors : List Accessor) :
    Level files search (prepareEach context session running accessors)
      (prepareEach context' session' running accessors) := by
  induction accessors generalizing session session' running with
  | nil => exact ⟨hsame, rfl⟩
  | cons accessor rest ih =>
    have hprepare := hkind.prepare accessor (accessor.effectiveLocale context.locale)
      running.memory (hbeside.indistinct hsame)
    obtain ⟨result, next, next', called, entry, hcall, hcall', hnext, hcalled⟩ :=
      exists_called running (.prepare accessor) hsame hprepare
    rw [prepareEach, prepareEach, ← hbeside.agrees.locale, hcall, hcall']
    exact (ih (hcalled ▸ hkind) hnext).map fun last => (last.1, entry :: last.2)

theorem level_prepareTask {task : Task} (hkind : task.kind.generator.Oblivious)
    (hsame : Session.Same files search session session') :
    Level files search (prepareTask context session task) (prepareTask context' session' task) := by
  let running := Running.ofTask task
  have hselected := hsame.select task.kind.id
  have hinit := hkind.init running.memory (hbeside.indistinct hselected)
  obtain ⟨result, next, next', called, entry, hcall, hcall', hnext, hcalled⟩ :=
    exists_called running .init hselected hinit
  simp only [running, Running.ofTask] at hcall hcall'
  simp only [prepareTask, Running.ofTask, Running.id, hcall, hcall']
  cases result with
  | error error => exact ⟨hnext, rfl⟩
  | ok =>
    exact (level_prepareEach hbeside (hcalled ▸ hkind) hnext called.accessors).map
      fun last => (last.1, entry :: last.2)

theorem level_prepareAll {tasks : List Task} (hkinds : ∀ task ∈ tasks, task.kind.generator.Oblivious)
    (hsame : Session.Same files search session session') :
    Level files search (prepareAll context session tasks) (prepareAll context' session' tasks) := by
  induction tasks generalizing session session' with
  | nil => exact ⟨hsame, rfl⟩
  | cons task rest ih =>
    rw [List.forall_mem_cons] at hkinds
    obtain ⟨next, next', ⟨running, journal⟩, htask, htask', hnext⟩ :=
      (level_prepareTask hbeside hkinds.1 hsame).split
    rw [prepareAll, prepareAll, htask, htask']
    exact (ih hkinds.2 hnext).map fun others => (running :: others.1, journal ++ others.2)

theorem level_createFields {generators : List Running}
    (hkinds : ∀ running ∈ generators, running.kind.generator.Oblivious)
    (hsame : Session.Same files search session session') (registry : FieldRegistry) :
    Level files search (createFields context session registry generators)
      (createFields context' session' registry generators) := by
  induction generators generalizing session session' registry with
  | nil => exact ⟨hsame, rfl⟩
  | cons running rest ih =>
    rw [List.forall_mem_cons] at hkinds
    have hselected := hsame.select running.id
    obtain ⟨⟨hresult, hnext, hmemory⟩, hfields⟩ := hkinds.1.createFields registry running.memory
      (hbeside.indistinct hselected)
    rcases hrun : (running.kind.generator.createFields registry context (session.select running.id)
      running.memory).run registry with ⟨⟨result, next, memory⟩, fields⟩
    rcases hrun' : (running.kind.generator.createFields registry context' (session'.select running.id)
      running.memory).run registry with ⟨⟨result', next', memory'⟩, fields'⟩
    rw [hrun, hrun'] at hresult hnext hmemory hfields
    obtain rfl : result = result' := hresult
    obtain rfl : memory = memory' := hmemory
    obtain rfl : fields = fields' := hfields
    have hentry : running.entry .createFields (session'.select running.id) result next' =
        running.entry .createFields (session.select running.id) result next := by
      unfold Running.entry
      rw [hselected.active, hnext.active]
    rw [createFields, createFields]
    dsimp only
    rw [hrun, hrun']
    dsimp only
    rw [hentry]
    exact (ih hkinds.2 hnext fields).map fun last => (last.1, { running with memory } :: last.2.1,
      running.entry .createFields (session.select running.id) result next :: last.2.2)

theorem level_assignEach {running : Running} (hkind : running.kind.generator.Oblivious)
    (hsame : Session.Same files search session session') (assignments : Assignments)
    (accessors : List Accessor) :
    Level files search (assignEach context session running assignments accessors)
      (assignEach context' session' running assignments accessors) := by
  induction accessors generalizing session session' running assignments with
  | nil => exact ⟨hsame, rfl⟩
  | cons accessor rest ih =>
    have hassign := hkind.createAssignment accessor
      (accessor.effectiveLocale context.locale) running.memory
      (hbeside.indistinct hsame)
    obtain ⟨result, next, next', called, entry, hcall, hcall', hnext, hcalled⟩ :=
      exists_called running (.createAssignment accessor) hsame hassign
    rw [assignEach, assignEach, ← hbeside.agrees.locale, hcall, hcall']
    exact (ih (hcalled ▸ hkind) hnext _).map fun last => (last.1, last.2.1, entry :: last.2.2)

theorem level_assignAll {generators : List Running}
    (hkinds : ∀ running ∈ generators, running.kind.generator.Oblivious)
    (hsame : Session.Same files search session session') (assignments : Assignments) :
    Level files search (assignAll context session assignments generators)
      (assignAll context' session' assignments generators) := by
  induction generators generalizing session session' assignments with
  | nil => exact ⟨hsame, rfl⟩
  | cons running rest ih =>
    rw [List.forall_mem_cons] at hkinds
    obtain ⟨next, next', ⟨called, assignments, journal⟩, heach, heach', hnext⟩ :=
      (level_assignEach hbeside hkinds.1 (hsame.select running.id) assignments running.accessors).split
    rw [assignAll, assignAll]
    dsimp only
    rw [heach, heach']
    exact (ih hkinds.2 hnext assignments).map fun others =>
      (called :: others.1, others.2.1, journal ++ others.2.2)

theorem level_finishAll {generators : List Running}
    (hkinds : ∀ running ∈ generators, running.kind.generator.Oblivious)
    (hsame : Session.Same files search session session') :
    Level files search (finishAll context session generators)
      (finishAll context' session' generators) := by
  induction generators generalizing session session' with
  | nil => exact ⟨hsame, rfl⟩
  | cons running rest ih =>
    rw [List.forall_mem_cons] at hkinds
    have hselected := hsame.select running.id
    have hfinish := hkinds.1.finish running.memory (hbeside.indistinct hselected)
    obtain ⟨result, next, next', called, entry, hcall, hcall', hnext, -⟩ :=
      exists_called running .finish hselected hfinish
    rw [finishAll, finishAll]
    dsimp only
    rw [hcall, hcall']
    exact (ih hkinds.2 hnext).map fun others => (called :: others.1, entry :: others.2)

end

/-! ### The whole work -/

theorem oblivious_of_tasks {generators : List Running} {tasks : List Task}
    (htasks : generators.map Running.task = tasks)
    (hkinds : ∀ task ∈ tasks, task.kind.generator.Oblivious) :
    ∀ running ∈ generators, running.kind.generator.Oblivious := by
  intro running hrunning
  exact hkinds running.task (htasks ▸ List.mem_map_of_mem hrunning)

variable {plan other : Plan} {bundle : Bundle} {locale : Option String}

theorem beside_of_reorders (hreorders : plan.Reorders other) (hinline : plan.deployment = .inline) :
    Beside (plan.context bundle locale) (other.context bundle locale) where
  inline := hinline
  agrees :=
    { bundle := rfl
      locale := rfl
      extensions := hreorders.agrees.defaultExtensions
      bundles := hreorders.get?_bundles
      deployment := hreorders.deployment
      stripComments := hreorders.stripComments }

/-- What the generators of a pass make does not depend on the order of the declarations, nor on what the finder
remembers. -/
theorem exists_work (hreorders : plan.Reorders other) (hinline : plan.deployment = .inline)
    (locale : Option String) {tasks : List Task} (hkinds : ∀ task ∈ tasks, task.kind.generator.Oblivious)
    (hsame : Session.Same files search session session') :
    ∃ next next' result journal,
      work plan bundle locale session tasks = ⟨next, result, journal⟩ ∧
      work other bundle locale session' tasks = ⟨next', result, journal⟩ ∧
      Session.Same files search next next' := by
  have hbeside : Beside (plan.context bundle locale) (other.context bundle locale) :=
    beside_of_reorders hreorders hinline
  obtain ⟨first, first', ⟨generators, preparing⟩, hprepare, hprepare', hfirst⟩ :=
    (level_prepareAll hbeside hkinds hsame).split
  have htasks : generators.map Running.task = tasks := by
    have := tasks_prepareAll (plan.context bundle locale) session tasks
    rwa [hprepare] at this
  have hprepared := oblivious_of_tasks htasks hkinds
  obtain ⟨second, second', ⟨fields, defined, defining⟩, hdefine, hdefine', hsecond⟩ :=
    (level_createFields hbeside hprepared hfirst .empty).split
  have htasks' : defined.map Running.task = generators.map Running.task := by
    have := tasks_createFields (plan.context bundle locale) first .empty generators
    rwa [hdefine] at this
  have hdefined := oblivious_of_tasks (htasks'.trans htasks) hkinds
  obtain ⟨third, third', ⟨answered, assignments, assigning⟩, hassign, hassign', hthird⟩ :=
    (level_assignAll hbeside hdefined hsecond .empty).split
  have htasks'' : answered.map Running.task = defined.map Running.task := by
    have := tasks_answersAll (plan.context bundle locale) second defined
    rw [assignAll_eq] at hassign
    rwa [congrArg (·.2.1) hassign] at this
  have hanswered := oblivious_of_tasks (htasks''.trans (htasks'.trans htasks)) hkinds
  obtain ⟨last, last', ⟨finished, finishing⟩, hfinish, hfinish', hlast⟩ :=
    (level_finishAll hbeside hanswered hthird).split
  unfold work
  simp only [hprepare, hprepare', hdefine, hdefine', hassign, hassign', hfinish, hfinish',
    hreorders.implemented bundle]
  split
  · exact ⟨_, _, _, _, rfl, rfl, hfirst⟩
  · split
    · exact ⟨_, _, _, _, rfl, rfl, hthird⟩
    · split
      · exact ⟨_, _, _, _, rfl, rfl, hlast⟩
      · exact ⟨_, _, _, _, rfl, rfl, hlast⟩

end BundleForge.Pass
