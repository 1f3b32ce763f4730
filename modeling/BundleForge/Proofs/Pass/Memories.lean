import BundleForge.Proofs.Pass.Deposits
/-!
# What generators remember of their accessors

Between the call that prepares an accessor and the call that asks for its expression, a generator prepares
its other accessors and the other generators work. What a generator has learned of an accessor is still there
when it is asked, if preparing an accessor of another name leaves it alone. The lemmas here carry such a fact
from the one call to the other, for any generator and any fact.
-/

namespace BundleForge.Pass

variable (context : Context) {kind : GeneratorKind} {served : List Accessor}

def preparation (kind : GeneratorKind) (accessor : Accessor) (session : Session)
    (memory : kind.generator.Memory) : Outcome kind.generator.Memory Unit :=
  kind.generator.prepare accessor (accessor.effectiveLocale context.locale)
    context session memory

def preparingCall (kind : GeneratorKind) (accessor : Accessor) (session : Session)
    (memory : kind.generator.Memory) : Call :=
  let own := preparation context kind accessor session memory
  ⟨kind.id, .prepare accessor, session.active, Running.error? own.1, own.2.1.active⟩

theorem prepareEach_cons (session : Session) (memory : kind.generator.Memory) (accessor : Accessor)
    (rest : List Accessor) :
    prepareEach context session ⟨kind, memory, served⟩ (accessor :: rest) =
      let own := preparation context kind accessor session memory
      let last := prepareEach context own.2.1 ⟨kind, own.2.2, served⟩ rest
      (last.1, last.2.1,
        preparingCall context kind accessor session memory :: last.2.2) :=
  rfl

theorem handlingEach_cons (session : Session) (memory : kind.generator.Memory) (accessor : Accessor)
    (rest : List Accessor) :
    handlingEach context session ⟨kind, memory, served⟩ (accessor :: rest) =
      let own := preparation context kind accessor session memory
      ⟨⟨kind, memory, served⟩, accessor, session⟩ ::
        handlingEach context own.2.1 ⟨kind, own.2.2, served⟩ rest :=
  rfl

/-- A fact about the memory that each call keeps is kept by all of them. -/
theorem exists_memory_prepareEach {P : kind.generator.Memory → Prop} (served : List Accessor)
    (session : Session) (memory : kind.generator.Memory)
    (accessors : List Accessor)
    (hkeeps : ∀ accessor session' memory',
      ⟨⟨kind, memory', served⟩, accessor, session'⟩ ∈
        handlingEach context session ⟨kind, memory, served⟩ accessors →
      P memory' → P (preparation context kind accessor session' memory').2.2)
    (h : P memory) :
    ∃ last, (prepareEach context session ⟨kind, memory, served⟩ accessors).2.1 =
      ⟨kind, last, served⟩ ∧ P last := by
  induction accessors generalizing session memory with
  | nil => exact ⟨memory, rfl, h⟩
  | cons accessor rest ih =>
    apply ih
    · intro other session' memory' hmem
      exact hkeeps other session' memory' (List.mem_cons_of_mem _ hmem)
    · exact hkeeps accessor session memory List.mem_cons_self h

theorem map_accessor_handlingEach (session : Session) (running : Running) (accessors : List Accessor) :
    (handlingEach context session running accessors).map (·.accessor) = accessors := by
  induction accessors generalizing session running with
  | nil => rfl
  | cons accessor rest ih => exact congrArg (List.cons accessor) (ih _ _)

theorem accessor_of_mem_handlingEach {session : Session} {running : Running}
    {accessors : List Accessor} {handling : Handling}
    (h : handling ∈ handlingEach context session running accessors) :
    handling.accessor ∈ accessors := by
  have hmem := List.mem_map_of_mem (f := Handling.accessor) h
  rwa [map_accessor_handlingEach] at hmem

theorem id_of_mem_handlingEach {session : Session} {running : Running} {accessors : List Accessor}
    {handling : Handling} (h : handling ∈ handlingEach context session running accessors) :
    handling.running.id = running.id := by
  induction accessors generalizing session running with
  | nil => exact absurd h List.not_mem_nil
  | cons accessor rest ih =>
    rcases List.mem_cons.1 h with rfl | hrest
    · rfl
    · have hid := ih hrest
      exact hid

theorem prepareEach_append (session : Session) (running : Running) (first rest : List Accessor) :
    prepareEach context session running (first ++ rest) =
      let begun := prepareEach context session running first
      let last := prepareEach context begun.1 begun.2.1 rest
      (last.1, last.2.1, begun.2.2 ++ last.2.2) := by
  induction first generalizing session running with
  | nil => rfl
  | cons accessor others ih =>
    obtain ⟨kind, memory, served⟩ := running
    rw [List.cons_append, prepareEach_cons, prepareEach_cons]
    dsimp only
    rw [ih]
    rfl

theorem handlingEach_append (session : Session) (running : Running) (first rest : List Accessor) :
    handlingEach context session running (first ++ rest) =
      let begun := prepareEach context session running first
      handlingEach context session running first ++ handlingEach context begun.1 begun.2.1 rest := by
  induction first generalizing session running with
  | nil => rfl
  | cons accessor others ih =>
    obtain ⟨kind, memory, served⟩ := running
    rw [List.cons_append, handlingEach_cons, handlingEach_cons, prepareEach_cons]
    dsimp only
    rw [ih]
    rfl

/-- The call that prepares the only accessor of some name, in the run of calls that prepare the accessors of a
generator. -/
structure Prepares (context : Context) (kind : GeneratorKind) (served : List Accessor)
    (accessor : Accessor) (session : Session) (first memory last : kind.generator.Memory)
    (handlings : List Handling) (journal : Journal) : Prop where
  /-- What holds at the beginning and is kept by every call holds when the accessor is prepared. -/
  reached : ∀ P : kind.generator.Memory → Prop,
    (∀ other session' memory', ⟨⟨kind, memory', served⟩, other, session'⟩ ∈ handlings → P memory' →
      P (preparation context kind other session' memory').2.2) →
    P first → P memory
  handled : ⟨⟨kind, memory, served⟩, accessor, session⟩ ∈ handlings
  called : preparingCall context kind accessor session memory ∈ journal
  /-- What is learned in the call is kept if the calls for other names keep it. -/
  keeps : ∀ P : kind.generator.Memory → Prop,
    (∀ other session' memory', ⟨⟨kind, memory', served⟩, other, session'⟩ ∈ handlings →
      other.name ≠ accessor.name → P memory' →
        P (preparation context kind other session' memory').2.2) →
    P (preparation context kind accessor session memory).2.2 → P last

theorem exists_prepares (served : List Accessor) {accessor : Accessor} {accessors : List Accessor}
    (honly : accessors.filter (·.name = accessor.name) = [accessor]) (session : Session)
    (memory : kind.generator.Memory) :
    ∃ session' memory' last,
      (prepareEach context session ⟨kind, memory, served⟩ accessors).2.1 = ⟨kind, last, served⟩ ∧
      Prepares context kind served accessor session' memory memory' last
        (handlingEach context session ⟨kind, memory, served⟩ accessors)
        (prepareEach context session ⟨kind, memory, served⟩ accessors).2.2 := by
  induction accessors generalizing session memory with
  | nil => simp at honly
  | cons other rest ih =>
    by_cases hname : other.name = accessor.name
    · rw [List.filter_cons_of_pos (by simpa using hname)] at honly
      obtain ⟨rfl, hrest⟩ := List.cons.inj honly
      rw [List.filter_eq_nil_iff] at hrest
      obtain ⟨last, hlast, -⟩ := exists_memory_prepareEach context
        (P := fun _ => True) served (preparation context kind other session memory).2.1
        (preparation context kind other session memory).2.2 rest (fun _ _ _ _ _ => trivial) trivial
      refine ⟨session, memory, last, hlast, fun _ _ hfirst => hfirst, List.mem_cons_self,
        List.mem_cons_self, ?_⟩
      intro P hkeeps hown
      have hothers := fun another session' memory' hmem => hkeeps another session' memory'
        (List.mem_cons_of_mem _ hmem)
        (by simpa using hrest another (accessor_of_mem_handlingEach context hmem))
      obtain ⟨last', hlast', hP⟩ := exists_memory_prepareEach context served _ _ rest hothers hown
      obtain ⟨-, hsame, -⟩ := Running.mk.inj (hlast.symm.trans hlast')
      obtain rfl := eq_of_heq hsame
      exact hP
    · rw [List.filter_cons_of_neg (by simpa using hname)] at honly
      obtain ⟨session', memory', last, hlast, hprepares⟩ := ih honly
        (preparation context kind other session memory).2.1
        (preparation context kind other session memory).2.2
      refine ⟨session', memory', last, hlast, fun P hkeeps hfirst => ?_,
        List.mem_cons_of_mem _ hprepares.handled, List.mem_cons_of_mem _ hprepares.called,
        fun P hkeeps hown => ?_⟩
      · apply hprepares.reached P
        · intro another session'' memory'' hmem
          exact hkeeps another session'' memory'' (List.mem_cons_of_mem _ hmem)
        · exact hkeeps other session memory List.mem_cons_self hfirst
      · apply hprepares.keeps P ?_ hown
        intro another session'' memory'' hmem
        exact hkeeps another session'' memory'' (List.mem_cons_of_mem _ hmem)

/-! ### All tasks of a pass -/

def starting (kind : GeneratorKind) (session : Session) : Outcome kind.generator.Memory Unit :=
  kind.generator.init context (session.select kind.id) kind.generator.fresh

def startingCall (kind : GeneratorKind) (session : Session) : Call :=
  let own := starting context kind session
  ⟨kind.id, .init, some kind.id, Running.error? own.1, own.2.1.active⟩

theorem prepareTask_of_ok {session : Session} (served : List Accessor)
    (h : (starting context kind session).1 = .ok ()) :
    let started := starting context kind session
    let last := prepareEach context started.2.1 ⟨kind, started.2.2, served⟩ served
    prepareTask context session ⟨kind, served⟩ =
        (last.1, last.2.1, startingCall context kind session :: last.2.2) ∧
      handlingTask context session ⟨kind, served⟩ =
        handlingEach context started.2.1 ⟨kind, started.2.2, served⟩ served := by
  unfold startingCall
  rcases hstarted : starting context kind session with ⟨result, started, memory⟩
  rw [hstarted] at h
  obtain rfl : result = .ok () := h
  have hcall : (Running.ofTask ⟨kind, served⟩).call .init context (session.select kind.id)
      kind.generator.init = (.ok (), started, ⟨kind, memory, served⟩,
        ⟨kind.id, .init, some kind.id, none, started.active⟩) := by
    have hinit : kind.generator.init context (session.select kind.id) kind.generator.fresh =
      (.ok (), started, memory) := hstarted
    simp only [Running.call, Running.ofTask, hinit]
    rfl
  constructor
  · unfold prepareTask
    simp only [Running.ofTask, Running.id] at hcall ⊢
    rw [hcall]
    rfl
  · unfold handlingTask
    simp only [Running.ofTask, Running.id] at hcall ⊢
    rw [hcall]

theorem startingCall_mem_prepareTask (session : Session) (served : List Accessor) :
    startingCall context kind session ∈ (prepareTask context session ⟨kind, served⟩).2.2 := by
  unfold prepareTask
  dsimp only
  split <;> exact List.mem_cons_self

theorem id_of_mem_handlingTask {session : Session} {task : Task} {handling : Handling}
    (h : handling ∈ handlingTask context session task) : handling.running.id = task.kind.id := by
  unfold handlingTask at h
  dsimp only at h
  split at h
  · exact absurd h List.not_mem_nil
  · exact id_of_mem_handlingEach context h

theorem exists_task_of_mem_handlingAll {session : Session} {tasks : List Task} {handling : Handling}
    (h : handling ∈ handlingAll context session tasks) :
    ∃ task ∈ tasks, handling.running.id = task.kind.id := by
  induction tasks generalizing session with
  | nil => exact absurd h List.not_mem_nil
  | cons task rest ih =>
    rcases List.mem_append.1 h with hown | hrest
    · exact ⟨task, List.mem_cons_self, id_of_mem_handlingTask context hown⟩
    · obtain ⟨other, hother, hid⟩ := ih hrest
      exact ⟨other, List.mem_cons_of_mem _ hother, hid⟩

/-- A task of a pass is started in some session, and if that succeeds its accessors are prepared. They are all that its
generator prepares if no other task has the same generator. -/
theorem exists_start (session : Session) {tasks : List Task} (htask : ⟨kind, served⟩ ∈ tasks) :
    ∃ before, startingCall context kind before ∈ (prepareAll context session tasks).2.2 ∧
      let started := starting context kind before
      let running : Running := ⟨kind, started.2.2, served⟩
      (started.1 = .ok () →
        (prepareEach context started.2.1 running served).2.1 ∈
          (prepareAll context session tasks).2.1 ∧
        handlingEach context started.2.1 running served ⊆ handlingAll context session tasks ∧
        (prepareEach context started.2.1 running served).2.2 ⊆
          (prepareAll context session tasks).2.2 ∧
        ((tasks.map (·.kind.id)).Nodup →
          (handlingAll context session tasks).filter (·.running.id = kind.id) =
            handlingEach context started.2.1 running served)) := by
  induction tasks generalizing session with
  | nil => exact absurd htask List.not_mem_nil
  | cons task rest ih =>
    rcases List.mem_cons.1 htask with rfl | hrest
    · refine ⟨session, List.mem_append_left _ (startingCall_mem_prepareTask context session served),
        fun hok => ?_⟩
      obtain ⟨hprepare, hhandling⟩ := prepareTask_of_ok context served hok
      rw [prepareAll, handlingAll, hprepare, hhandling]
      refine ⟨List.mem_cons_self, List.subset_append_left _ _, ?_, fun hnodup => ?_⟩
      · exact fun call hcall => List.mem_append_left _ (List.mem_cons_of_mem _ hcall)
      · rw [List.filter_append, List.filter_eq_self.2, List.filter_eq_nil_iff.2, List.append_nil]
        · intro handling hmem hsame
          obtain ⟨other, hother, hid⟩ := exists_task_of_mem_handlingAll context hmem
          exact (List.nodup_cons.1 hnodup).1
            (List.mem_map.2 ⟨other, hother, hid.symm.trans (of_decide_eq_true hsame)⟩)
        · exact fun handling hmem => decide_eq_true (id_of_mem_handlingEach context hmem)
    · obtain ⟨before, hcalled, hstart⟩ := ih (prepareTask context session task).1 hrest
      refine ⟨before, List.mem_append_right _ hcalled, fun hok => ?_⟩
      obtain ⟨hrunning, hhandlings, hjournal, honly⟩ := hstart hok
      refine ⟨List.mem_cons_of_mem _ hrunning,
        fun handling hmem => List.mem_append_right _ (hhandlings hmem),
        fun call hmem => List.mem_append_right _ (hjournal hmem), fun hnodup => ?_⟩
      rw [List.map_cons, List.nodup_cons] at hnodup
      rw [handlingAll, List.filter_append, honly hnodup.2, List.filter_eq_nil_iff.2, List.nil_append]
      intro handling hmem hsame
      have hkind : kind.id = task.kind.id :=
        (of_decide_eq_true hsame).symm.trans (id_of_mem_handlingTask context hmem)
      exact hnodup.1 (List.mem_map.2 ⟨_, hrest, hkind⟩)

/-- The only accessor of a name in a bundle is the only one in its task. -/
theorem filter_served {plan : Plan} {bundle : Bundle} {accessor : Accessor}
    (honly : bundle.accessors.filter (·.name = accessor.name) = [accessor])
    (htask : ⟨kind, served⟩ ∈ tasksOf plan bundle) (hserved : accessor ∈ served) :
    served.filter (·.name = accessor.name) = [accessor] := by
  have hgrouped := Dispatch.grouped_ofBundle plan.registry plan.hierarchy bundle
  have hif := hgrouped.filter_accessors honly htask
  have hmem : accessor ∈ served.filter (·.name = accessor.name) :=
    List.mem_filter.2 ⟨hserved, decide_eq_true rfl⟩
  split at hif
  · exact hif
  · rw [hif] at hmem
    exact absurd hmem List.not_mem_nil

/-! ### Fields -/

theorem fields_prefix_createFields (session : Session) (registry : FieldRegistry)
    (generators : List Running) :
    registry.fields <+: (createFields context session registry generators).2.1.fields := by
  induction generators generalizing session registry with
  | nil => exact List.prefix_refl _
  | cons running rest ih => exact (Generator.fields_prefix_run _ registry).trans (ih _ _)

/-- What a call for the fields of a generator comes to, with the fields it leaves. -/
def defining (kind : GeneratorKind) (session : Session) (memory : kind.generator.Memory)
    (registry : FieldRegistry) : Outcome kind.generator.Memory Unit × FieldRegistry :=
  (kind.generator.createFields registry context (session.select kind.id) memory).run registry

def Fieldless (generator : Generator) : Prop :=
  ∀ registry context session memory,
    generator.createFields registry context session memory = .done (.ok (), session, memory)

/-- No other generator has fields. -/
def Alone (kind : GeneratorKind) (generators : List Running) : Prop :=
  (generators.map (·.id)).Nodup ∧
    ∀ running ∈ generators, running.id ≠ kind.id → Fieldless running.kind.generator

theorem Alone.tail {running : Running} {rest : List Running} (h : Alone kind (running :: rest)) :
    Alone kind rest :=
  ⟨(List.nodup_cons.1 h.1).2, fun other hother => h.2 other (List.mem_cons_of_mem _ hother)⟩

/-- Generators without fields leave the registry as it is. -/
theorem registry_createFields {generators : List Running}
    (h : ∀ running ∈ generators, Fieldless running.kind.generator) (session : Session)
    (registry : FieldRegistry) :
    (createFields context session registry generators).2.1 = registry := by
  induction generators generalizing session with
  | nil => rfl
  | cons running rest ih =>
    rw [List.forall_mem_cons] at h
    rw [createFields, h.1]
    exact ih h.2 _

/-- A generator of a pass defines its fields in some session, and they stay. If no other generator has fields they are
all there are. -/
theorem exists_defining {memory : kind.generator.Memory} {generators : List Running}
    (h : ⟨kind, memory, served⟩ ∈ generators) (session : Session) (registry : FieldRegistry) :
    ∃ before fields,
      ⟨kind, (defining context kind before memory fields).1.2.2, served⟩ ∈
        (createFields context session registry generators).2.2.1 ∧
      (defining context kind before memory fields).2.fields <+:
        (createFields context session registry generators).2.1.fields ∧
      (Alone kind generators → fields = registry ∧
        (createFields context session registry generators).2.1 =
          (defining context kind before memory fields).2) := by
  induction generators generalizing session registry with
  | nil => exact absurd h List.not_mem_nil
  | cons running rest ih =>
    rw [createFields]
    rcases List.mem_cons.1 h with rfl | hrest
    · refine ⟨session, registry, List.mem_cons_self, fields_prefix_createFields context _ _ rest,
        fun halone => ⟨rfl, registry_createFields context (fun other hother => ?_) _ _⟩⟩
      refine halone.2 other (List.mem_cons_of_mem _ hother) fun hid => ?_
      exact (List.nodup_cons.1 halone.1).1 (List.mem_map.2 ⟨other, hother, hid⟩)
    · obtain ⟨before, fields, hrunning, hfields, halone⟩ := ih hrest _ _
      refine ⟨before, fields, List.mem_cons_of_mem _ hrunning, hfields, fun h => ?_⟩
      have hid : running.id ≠ kind.id :=
        fun hid => (List.nodup_cons.1 h.1).1 (List.mem_map.2 ⟨_, hrest, hid.symm⟩)
      obtain ⟨rfl, hlast⟩ := halone h.tail
      rw [h.2 running List.mem_cons_self hid] at hlast ⊢
      exact ⟨rfl, hlast⟩

/-! ### Answers from memory -/

theorem mem_createFields (hfieldless : Fieldless kind.generator) {memory : kind.generator.Memory}
    {generators : List Running} (h : ⟨kind, memory, served⟩ ∈ generators) (session : Session)
    (registry : FieldRegistry) :
    ⟨kind, memory, served⟩ ∈ (createFields context session registry generators).2.2.1 := by
  obtain ⟨before, fields, hrunning, -, -⟩ := exists_defining context h session registry
  rw [defining, hfieldless] at hrunning
  exact hrunning

/-- The generator answers from its memory alone, and changes nothing when it is asked. -/
def Recites (generator : Generator)
    (say : Context → generator.Memory → Accessor → Option String → Except ResourceError String) :
    Prop :=
  ∀ accessor locale context session memory,
    generator.createAssignment accessor locale context session memory =
      (say context memory accessor locale, session, memory)

variable {say : Context → kind.generator.Memory → Accessor → Option String →
  Except ResourceError String}

def recited (say : Context → kind.generator.Memory → Accessor → Option String →
    Except ResourceError String) (memory : kind.generator.Memory) (accessor : Accessor) : Answer :=
  ⟨kind, accessor, say context memory accessor
    (accessor.effectiveLocale context.locale)⟩

theorem answersEach_eq_map (hrecites : Recites kind.generator say) (session : Session)
    (memory : kind.generator.Memory) (accessors : List Accessor) :
    answersEach context session ⟨kind, memory, served⟩ accessors =
      (session, ⟨kind, memory, served⟩, accessors.map (recited context say memory)) := by
  induction accessors with
  | nil => rfl
  | cons accessor rest ih =>
    have hasked := hrecites accessor (accessor.effectiveLocale context.locale)
      context session memory
    rw [answersEach]
    simp only [hasked, ih]
    rfl

theorem recited_mem_answersAll (hrecites : Recites kind.generator say)
    {memory : kind.generator.Memory} {accessor : Accessor} (hserved : accessor ∈ served)
    {generators : List Running} (h : ⟨kind, memory, served⟩ ∈ generators) (session : Session) :
    recited context say memory accessor ∈ (answersAll context session generators).2.2 := by
  induction generators generalizing session with
  | nil => exact absurd h List.not_mem_nil
  | cons running rest ih =>
    rw [answersAll]
    rcases List.mem_cons.1 h with rfl | hrest
    · apply List.mem_append_left
      show _ ∈ (answersEach context (session.select kind.id) ⟨kind, memory, served⟩ served).2.2
      rw [answersEach_eq_map context hrecites]
      exact List.mem_map_of_mem hserved
    · exact List.mem_append_right _ (ih hrest _)

theorem recited_mem_answersOf {plan : Plan} {bundle : Bundle} {locale : Option String}
    {session : Session} {tasks : List Task} (hfieldless : Fieldless kind.generator)
    (hrecites : Recites kind.generator say) {memory : kind.generator.Memory} {accessor : Accessor}
    (hserved : accessor ∈ served)
    (h : ⟨kind, memory, served⟩ ∈ (prepareAll (plan.context bundle locale) session tasks).2.1) :
    recited (plan.context bundle locale) say memory accessor ∈
      answersOf plan bundle locale session tasks :=
  recited_mem_answersAll _ hrecites hserved (mem_createFields _ hfieldless h _ .empty) _

end BundleForge.Pass
