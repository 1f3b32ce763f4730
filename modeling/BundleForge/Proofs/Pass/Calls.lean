import BundleForge.Proofs.Pass.Course
/-!
# What the calls of a pass do

A journal only lists calls. Here it is tied to what generators do: `Makes` takes the generators on a bench
through the calls of a journal one by one, each of them made of the generator it names and on the session the
call before it has left, in which a generator may have been selected in between. The journal of a pass is one
its generators make on a bench where none of them has been called yet, and the pass ends with the session they
leave.
-/

namespace BundleForge

/-- What the generators of a pass share and what they keep from call to call. -/
structure Bench where
  session : Session
  fields : FieldRegistry
  generators : List Running

def Bench.fresh (session : Session) (tasks : List Task) : Bench :=
  ⟨session, .empty, tasks.map Running.ofTask⟩

structure Performed where
  session : Session
  fields : FieldRegistry
  running : Running
  failure : Option ResourceError

namespace Running

/-- A phase of a generator that does not define fields. -/
def settle {α : Type} (running : Running) (fields : FieldRegistry)
    (outcome : Outcome running.kind.generator.Memory α) : Performed :=
  ⟨outcome.2.1, fields, { running with memory := outcome.2.2 }, error? outcome.1⟩

def perform (running : Running) (context : Context) (session : Session) (fields : FieldRegistry) :
    Step → Performed
  | .init => running.settle fields (running.kind.generator.init context session running.memory)
  | .prepare accessor =>
    running.settle fields
      (running.kind.generator.prepare accessor (accessor.effectiveLocale context.locale) context
        session running.memory)
  | .createFields =>
    let (outcome, fields) :=
      (running.kind.generator.createFields fields context session running.memory).run fields
    running.settle fields outcome
  | .createAssignment accessor =>
    running.settle fields
      (running.kind.generator.createAssignment accessor (accessor.effectiveLocale context.locale)
        context session running.memory)
  | .finish => running.settle fields (running.kind.generator.finish context session running.memory)

end Running

namespace Pass

/-- The generators on a bench make the calls of a journal one after the other, and are selected in between. -/
inductive Makes (context : Context) : Bench → Journal → Bench → Prop
  | nil (bench : Bench) : Makes context bench [] bench
  | select {session : Session} {fields : FieldRegistry} {generators : List Running} {journal : Journal}
      {last : Bench} (id : GeneratorId)
      (rest : Makes context ⟨session.select id, fields, generators⟩ journal last) :
      Makes context ⟨session, fields, generators⟩ journal last
  | call {session : Session} {fields : FieldRegistry} {before after : List Running}
      {running : Running} {performed : Performed} {journal : Journal} {last : Bench} (step : Step)
      (performs : running.perform context session fields step = performed)
      (rest : Makes context
        ⟨performed.session, performed.fields, before ++ performed.running :: after⟩ journal last) :
      Makes context ⟨session, fields, before ++ running :: after⟩
        (⟨running.id, step, session.active, performed.failure, performed.session.active⟩ :: journal) last

variable {context : Context} {bench middle last : Bench} {journal more : Journal}

theorem Makes.append (h : Makes context bench journal middle) (h' : Makes context middle more last) :
    Makes context bench (journal ++ more) last := by
  induction h with
  | nil bench => exact h'
  | select id rest ih => exact .select id (ih h')
  | call step performs rest ih => exact .call step performs (ih h')

/-- The calls of one generator, then those of the generators after it. -/
theorem Makes.next {session session' session'' : Session} {fields fields' fields'' : FieldRegistry}
    {before rest others : List Running} {running called : Running}
    (h : Makes context ⟨session, fields, before ++ running :: rest⟩ journal
      ⟨session', fields', before ++ called :: rest⟩)
    (h' : Makes context ⟨session', fields', (before ++ [called]) ++ rest⟩ more
      ⟨session'', fields'', (before ++ [called]) ++ others⟩) :
    Makes context ⟨session, fields, before ++ running :: rest⟩ (journal ++ more)
      ⟨session'', fields'', before ++ called :: others⟩ := by
  rw [List.append_assoc, List.append_assoc] at h'
  exact h.append h'

/-! ### Phase by phase

In each phase the generators are called one after the other, so those before the one that is called have
been called already and those after it have not. -/

section

variable (context : Context)

theorem makes_prepareEach (session : Session) (fields : FieldRegistry) (running : Running)
    (before after : List Running) (accessors : List Accessor) :
    Makes context ⟨session, fields, before ++ running :: after⟩
      (prepareEach context session running accessors).2.2
      ⟨(prepareEach context session running accessors).1, fields,
        before ++ (prepareEach context session running accessors).2.1 :: after⟩ := by
  induction accessors generalizing session running with
  | nil => exact .nil _
  | cons accessor rest ih => exact .call (.prepare accessor) rfl (ih _ _)

theorem makes_prepareTask (session : Session) (fields : FieldRegistry) (task : Task)
    (before after : List Running) :
    Makes context ⟨session, fields, before ++ Running.ofTask task :: after⟩
      (prepareTask context session task).2.2
      ⟨(prepareTask context session task).1, fields,
        before ++ (prepareTask context session task).2.1 :: after⟩ := by
  refine .select task.kind.id ?_
  unfold prepareTask
  dsimp only [Running.call]
  split
  · rename_i error herror
    exact .call .init rfl (.nil _)
  · rename_i hok
    exact .call .init rfl (makes_prepareEach context _ fields _ before after _)

theorem makes_prepareAll (session : Session) (fields : FieldRegistry) (tasks : List Task)
    (before : List Running) :
    Makes context ⟨session, fields, before ++ tasks.map Running.ofTask⟩
      (prepareAll context session tasks).2.2
      ⟨(prepareAll context session tasks).1, fields,
        before ++ (prepareAll context session tasks).2.1⟩ := by
  induction tasks generalizing session before with
  | nil => exact .nil _
  | cons task rest ih =>
    have htask := makes_prepareTask context session fields task before (rest.map Running.ofTask)
    exact htask.next (ih _ _)

theorem makes_createFields (session : Session) (fields : FieldRegistry)
    (generators before : List Running) :
    Makes context ⟨session, fields, before ++ generators⟩
      (createFields context session fields generators).2.2.2
      ⟨(createFields context session fields generators).1,
        (createFields context session fields generators).2.1,
        before ++ (createFields context session fields generators).2.2.1⟩ := by
  induction generators generalizing session fields before with
  | nil => exact .nil _
  | cons running rest ih =>
    have hcall : Makes context ⟨session, fields, before ++ running :: rest⟩ _ _ :=
      .select running.id (.call .createFields rfl (.nil _))
    exact hcall.next (ih _ _ _)

theorem makes_answersEach (session : Session) (fields : FieldRegistry) (running : Running)
    (before after : List Running) (accessors : List Accessor) :
    Makes context ⟨session, fields, before ++ running :: after⟩
      (asksEach context session running accessors)
      ⟨(answersEach context session running accessors).1, fields,
        before ++ (answersEach context session running accessors).2.1 :: after⟩ := by
  induction accessors generalizing session running with
  | nil => exact .nil _
  | cons accessor rest ih => exact .call (.createAssignment accessor) rfl (ih _ _)

theorem makes_answersAll (session : Session) (fields : FieldRegistry)
    (generators before : List Running) :
    Makes context ⟨session, fields, before ++ generators⟩
      (asksAll context session generators)
      ⟨(answersAll context session generators).1, fields,
        before ++ (answersAll context session generators).2.1⟩ := by
  induction generators generalizing session before with
  | nil => exact .nil _
  | cons running rest ih =>
    have hrunning := makes_answersEach context (session.select running.id) fields running before rest
      running.accessors
    exact (Makes.select running.id hrunning).next (ih _ _)

theorem makes_finishAll (session : Session) (fields : FieldRegistry)
    (generators before : List Running) :
    Makes context ⟨session, fields, before ++ generators⟩
      (finishAll context session generators).2.2
      ⟨(finishAll context session generators).1, fields,
        before ++ (finishAll context session generators).2.1⟩ := by
  induction generators generalizing session before with
  | nil => exact .nil _
  | cons running rest ih =>
    have hcall : Makes context ⟨session, fields, before ++ running :: rest⟩ _ _ :=
      .select running.id (.call .finish rfl (.nil _))
    exact hcall.next (ih _ _)

end

/-! ### The whole pass -/

/-- The generators of a pass make its calls, from a bench on which none has been called yet. -/
theorem Course.makes {plan : Plan} {bundle : Bundle} {locale : Option String} {session : Session}
    {tasks : List Task} {work : Work} (h : Course plan bundle locale session tasks work) :
    ∃ last, Makes (plan.context bundle locale) (.fresh session tasks) work.journal last ∧
      last.session = work.session := by
  have hpreparing := makes_prepareAll (plan.context bundle locale) session .empty tasks []
  have hdefining := makes_createFields (plan.context bundle locale)
    (prepared plan bundle locale session tasks).1 .empty
    (prepared plan bundle locale session tasks).2.1 []
  have hassigning := makes_answersAll (plan.context bundle locale)
    (defined plan bundle locale session tasks).1 (defined plan bundle locale session tasks).2.1
    (defined plan bundle locale session tasks).2.2.1 []
  have hfinishing := makes_finishAll (plan.context bundle locale)
    (answered plan bundle locale session tasks).1 (defined plan bundle locale session tasks).2.1
    (answered plan bundle locale session tasks).2.1 []
  have hemitting := hpreparing.append (hdefining.append hassigning)
  cases h with
  | preparing failed => exact ⟨_, hpreparing, rfl⟩
  | emitting prepare failed => exact ⟨_, hemitting, rfl⟩
  | finishing prepare emit failed => exact ⟨_, hemitting.append hfinishing, rfl⟩
  | done prepare emit finish => exact ⟨_, hemitting.append hfinishing, rfl⟩

end Pass

end BundleForge
