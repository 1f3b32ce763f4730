import BundleForge.Pass
import BundleForge.Proofs.Implementation.Wires
import BundleForge.Proofs.OrderedMap
/-!
# What the phases of a pass leave behind

The phases change what generators remember and what they share, but never which generators are at
work nor which accessors each of them serves. `Answer` is what a generator said when it was asked for
the expression of an accessor; the assignments of a pass, and the part of its journal that is about
them, are read off the list of answers.
-/

namespace BundleForge

def Running.task (running : Running) : Task := ⟨running.kind, running.accessors⟩

/-- What a generator said when it was asked for the expression of an accessor. -/
structure Answer where
  kind : GeneratorKind
  accessor : Accessor
  result : Except ResourceError String

def Call.outcome (call : Call) : GeneratorId × Step × Option ResourceError :=
  (call.generator, call.step, call.failure)

def Answer.outcome (answer : Answer) : GeneratorId × Step × Option ResourceError :=
  (answer.kind.id, .createAssignment answer.accessor, Running.error? answer.result)

namespace Pass

variable (context : Context)

/-! ### The generators at work -/

theorem task_prepareEach (session : Session) (running : Running) (accessors : List Accessor) :
    (prepareEach context session running accessors).2.1.task = running.task := by
  induction accessors generalizing session running with
  | nil => rfl
  | cons accessor rest ih => exact ih _ _

theorem task_prepareTask (session : Session) (task : Task) :
    (prepareTask context session task).2.1.task = task := by
  unfold prepareTask
  dsimp only [Running.call]
  split
  · rfl
  · exact task_prepareEach context _ _ _

theorem tasks_prepareAll (session : Session) (tasks : List Task) :
    (prepareAll context session tasks).2.1.map Running.task = tasks := by
  induction tasks generalizing session with
  | nil => rfl
  | cons task rest ih =>
    rw [prepareAll, List.map_cons]
    exact congrArg₂ List.cons (task_prepareTask context session task) (ih _)

theorem tasks_createFields (session : Session) (registry : FieldRegistry)
    (generators : List Running) :
    (createFields context session registry generators).2.2.1.map Running.task =
      generators.map Running.task := by
  induction generators generalizing session registry with
  | nil => rfl
  | cons running rest ih =>
    rw [createFields, List.map_cons, List.map_cons]
    exact congrArg₂ List.cons rfl (ih _ _)

/-! ### Answers -/

/-- The answers of one generator for some of its accessors, one after the other. -/
def answersEach (session : Session) (running : Running) :
    List Accessor → Session × Running × List Answer
  | [] => (session, running, [])
  | accessor :: rest =>
    let (result, session, memory) :=
      running.kind.generator.createAssignment accessor (accessor.effectiveLocale context.locale)
        context session running.memory
    let (session, last, answers) := answersEach session { running with memory } rest
    (session, last, ⟨running.kind, accessor, result⟩ :: answers)

def answersAll (session : Session) : List Running → Session × List Running × List Answer
  | [] => (session, [], [])
  | running :: rest =>
    let session := session.select running.id
    let (session, running, answers) := answersEach context session running running.accessors
    let (session, others, more) := answersAll session rest
    (session, running :: others, answers ++ more)

/-- The calls in which one generator is asked. -/
def asksEach (session : Session) (running : Running) : List Accessor → Journal
  | [] => []
  | accessor :: rest =>
    let (result, next, memory) :=
      running.kind.generator.createAssignment accessor (accessor.effectiveLocale context.locale)
        context session running.memory
    running.entry (.createAssignment accessor) session result next ::
      asksEach next { running with memory } rest

/-- The calls in which all generators are asked. -/
def asksAll (session : Session) : List Running → Journal
  | [] => []
  | running :: rest =>
    let session := session.select running.id
    asksEach context session running running.accessors ++
      asksAll (answersEach context session running running.accessors).1 rest

theorem task_answersEach (session : Session) (running : Running) (accessors : List Accessor) :
    (answersEach context session running accessors).2.1.task = running.task := by
  induction accessors generalizing session running with
  | nil => rfl
  | cons accessor rest ih => exact ih _ _

theorem tasks_answersAll (session : Session) (generators : List Running) :
    (answersAll context session generators).2.1.map Running.task =
      generators.map Running.task := by
  induction generators generalizing session with
  | nil => rfl
  | cons running rest ih =>
    rw [answersAll, List.map_cons, List.map_cons]
    exact congrArg₂ List.cons (task_answersEach context _ running _) (ih _)

/-- The assignments after an answer. -/
def take (assignments : Assignments) (answer : Answer) : Assignments :=
  match answer.result with
  | .ok expression =>
    assignments.insert answer.accessor.name
      ⟨expression, answer.kind.generator.producesPrototype⟩
  | .error _ => assignments

theorem assignEach_eq (session : Session) (running : Running) (assignments : Assignments)
    (accessors : List Accessor) :
    assignEach context session running assignments accessors =
      let (next, last, answers) := answersEach context session running accessors
      (next, last, answers.foldl take assignments, asksEach context session running accessors) := by
  induction accessors generalizing session running assignments with
  | nil => rfl
  | cons accessor rest ih =>
    rw [assignEach, answersEach]
    simp only [ih]
    rfl

theorem assignAll_eq (session : Session) (assignments : Assignments) (generators : List Running) :
    assignAll context session assignments generators =
      let (next, last, answers) := answersAll context session generators
      (next, last, answers.foldl take assignments, asksAll context session generators) := by
  induction generators generalizing session assignments with
  | nil => rfl
  | cons running rest ih =>
    rw [assignAll, answersAll, asksAll, assignEach_eq]
    simp only [ih, List.foldl_append]

theorem outcomes_asksEach (session : Session) (running : Running) (accessors : List Accessor) :
    (asksEach context session running accessors).map Call.outcome =
      (answersEach context session running accessors).2.2.map Answer.outcome := by
  induction accessors generalizing session running with
  | nil => rfl
  | cons accessor rest ih =>
    rw [asksEach, answersEach, List.map_cons, List.map_cons]
    exact congrArg₂ List.cons rfl (ih _ _)

theorem outcomes_asksAll (session : Session) (generators : List Running) :
    (asksAll context session generators).map Call.outcome =
      (answersAll context session generators).2.2.map Answer.outcome := by
  induction generators generalizing session with
  | nil => rfl
  | cons running rest ih =>
    rw [asksAll, answersAll, List.map_append, List.map_append]
    exact congrArg₂ (· ++ ·) (outcomes_asksEach context _ running running.accessors) (ih _)

theorem exists_ask {session : Session} {generators : List Running} {answer : Answer}
    (h : answer ∈ (answersAll context session generators).2.2) :
    ∃ call ∈ asksAll context session generators, call.outcome = answer.outcome := by
  have hmem := List.mem_map_of_mem (f := Answer.outcome) h
  rw [← outcomes_asksAll] at hmem
  exact List.mem_map.1 hmem

theorem subjects_answersEach (session : Session) (running : Running) (accessors : List Accessor) :
    (answersEach context session running accessors).2.2.map (fun a => (a.kind, a.accessor)) =
      accessors.map (running.kind, ·) := by
  induction accessors generalizing session running with
  | nil => rfl
  | cons accessor rest ih =>
    rw [answersEach, List.map_cons, List.map_cons]
    exact congrArg₂ List.cons rfl (ih _ _)

theorem subjects_answersAll (session : Session) (generators : List Running) :
    (answersAll context session generators).2.2.map (fun a => (a.kind, a.accessor)) =
      (generators.map Running.task).flatMap fun task => task.accessors.map (task.kind, ·) := by
  induction generators generalizing session with
  | nil => rfl
  | cons running rest ih =>
    rw [answersAll, List.map_cons, List.flatMap_cons, ← ih, List.map_append]
    exact congrArg₂ (· ++ ·) (subjects_answersEach context _ running running.accessors) rfl

/-! ### Assignments -/

theorem get?_foldl_take_of_forall_ne {answers : List Answer} {name : String}
    (h : ∀ answer ∈ answers, answer.accessor.name ≠ name) (assignments : Assignments) :
    (answers.foldl take assignments).get? name = assignments.get? name := by
  induction answers generalizing assignments with
  | nil => rfl
  | cons answer rest ih =>
    rw [List.foldl_cons, ih fun other hother => h other (List.mem_cons_of_mem _ hother), take]
    split
    · exact OrderedMap.get?_insert_of_ne _ _ (h answer List.mem_cons_self).symm
    · rfl

theorem get?_foldl_take {answers : List Answer} {answer : Answer} {name expression : String}
    (honly : answers.filter (·.accessor.name = name) = [answer])
    (hresult : answer.result = .ok expression) (assignments : Assignments) :
    (answers.foldl take assignments).get? name =
      some ⟨expression, answer.kind.generator.producesPrototype⟩ := by
  obtain ⟨before, after, rfl, -, hname, hafter⟩ := List.filter_eq_cons_iff.1 honly
  have hname : answer.accessor.name = name := of_decide_eq_true hname
  rw [List.filter_eq_nil_iff] at hafter
  rw [List.foldl_append, List.foldl_cons, get?_foldl_take_of_forall_ne (by simpa using hafter),
    take, hresult, ← hname]
  exact OrderedMap.get?_insert_self _ _ _

/-! ### Slots -/

theorem length_defineSlots (registry : FieldRegistry) (accessors : List Accessor) :
    (defineSlots registry accessors).1.length = accessors.length := by
  induction accessors generalizing registry with
  | nil => rfl
  | cons accessor rest ih =>
    rw [defineSlots, List.length_cons, List.length_cons]
    exact congrArg (· + 1) (ih _)

theorem fields_defineSlots (registry : FieldRegistry) (accessors : List Accessor) :
    (defineSlots registry accessors).2.fields = registry.fields ++
      (accessors.zip (defineSlots registry accessors).1).map fun (accessor, slot) =>
        Implementation.slotField accessor slot := by
  induction accessors generalizing registry with
  | nil => simp [defineSlots]
  | cons accessor rest ih =>
    have hlater := ih (registry.define (slotRequest accessor))
    rw [FieldRegistry.fields_define_eq, List.append_assoc] at hlater
    rw [defineSlots]
    exact hlater

theorem nodup_defineSlots (registry : FieldRegistry) (accessors : List Accessor) :
    (defineSlots registry accessors).1.Nodup := by
  have hnodup := (defineSlots registry accessors).2.nodup_idents
  have hidents : ((accessors.zip (defineSlots registry accessors).1).map fun (accessor, slot) =>
      Implementation.slotField accessor slot).map (·.ident) =
      (defineSlots registry accessors).1 := by
    rw [List.map_map]
    exact List.map_snd_zip (Nat.le_of_eq (length_defineSlots registry accessors))
  rw [fields_defineSlots, List.map_append, hidents] at hnodup
  exact (List.nodup_append.1 (List.nodup_append.1 hnodup).2.1).2.1

/-! ### Joining -/

theorem mem_of_mem_joinCode {assignments : Assignments} {pairs : List (Accessor × String)}
    {code : AccessorCode} (h : code ∈ joinCode assignments pairs) :
    (code.accessor, code.slot) ∈ pairs := by
  induction pairs generalizing assignments with
  | nil => exact absurd h List.not_mem_nil
  | cons pair rest ih =>
    rw [joinCode] at h
    split at h
    · exact List.mem_cons_of_mem _ (ih h)
    · rcases List.mem_cons.1 h with rfl | hrest
      · exact List.mem_cons_self
      · exact List.mem_cons_of_mem _ (ih hrest)

theorem joinCode_eq_map (assigned : Accessor → Assignment) {assignments : Assignments}
    {pairs : List (Accessor × String)} (hnodup : (pairs.map (·.1.name)).Nodup)
    (h : ∀ pair ∈ pairs, assignments.get? pair.1.name = some (assigned pair.1)) :
    joinCode assignments pairs = pairs.map fun pair =>
      ⟨pair.1, pair.2, (assigned pair.1).expression, (assigned pair.1).isPrototype⟩ := by
  induction pairs generalizing assignments with
  | nil => rfl
  | cons pair rest ih =>
    rw [List.map_cons, List.nodup_cons] at hnodup
    rw [joinCode, h pair List.mem_cons_self, List.map_cons]
    refine congrArg (List.cons _) (ih hnodup.2 fun other hother => ?_)
    have hne : other.1.name ≠ pair.1.name := fun heq =>
      hnodup.1 (heq ▸ List.mem_map_of_mem (f := fun p : Accessor × String => p.1.name) hother)
    rw [OrderedMap.get?_erase_of_ne _ hne]
    exact h other (List.mem_cons_of_mem _ hother)

theorem filter_joinCode {assignments : Assignments} {assignment : Assignment}
    {pairs : List (Accessor × String)} {accessor : Accessor} {slot : String}
    (honly : pairs.filter (·.1.name = accessor.name) = [(accessor, slot)])
    (h : assignments.get? accessor.name = some assignment) :
    (joinCode assignments pairs).filter (·.accessor.name = accessor.name) =
      [⟨accessor, slot, assignment.expression, assignment.isPrototype⟩] := by
  induction pairs generalizing assignments with
  | nil => simp at honly
  | cons pair rest ih =>
    by_cases hname : pair.1.name = accessor.name
    · rw [List.filter_cons_of_pos (by simpa using hname)] at honly
      obtain ⟨rfl, hrest⟩ := List.cons.inj honly
      have hnone : (joinCode (assignments.erase accessor.name) rest).filter
          (·.accessor.name = accessor.name) = [] := by
        refine List.filter_eq_nil_iff.2 fun code hcode hsame => ?_
        exact List.filter_eq_nil_iff.1 hrest _ (mem_of_mem_joinCode hcode) hsame
      rw [joinCode, h]
      dsimp only
      rw [List.filter_cons_of_pos (by simp), hnone]
    · rw [List.filter_cons_of_neg (by simpa using hname)] at honly
      rw [joinCode]
      split
      · exact ih honly h
      · rw [List.filter_cons_of_neg (by simpa using hname)]
        refine ih honly ?_
        rw [OrderedMap.get?_erase_of_ne _ (Ne.symm hname)]
        exact h

/-! ### Journals -/

theorem diagnostics_eq_nil_iff {bundle : Bundle} {phase : Phase} {journal : Journal} :
    diagnostics bundle phase journal = [] ↔ ∀ call ∈ journal, call.failure = none := by
  rw [diagnostics, List.filterMap_eq_nil_iff]
  simp only [Option.map_eq_none_iff]

theorem error?_eq_none_iff {α : Type} {result : Except ResourceError α} :
    Running.error? result = none ↔ ∃ value, result = .ok value := by
  cases result with
  | ok value => simp [Running.error?]
  | error error => simp [Running.error?]

end Pass

end BundleForge
