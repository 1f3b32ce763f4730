import BundleForge.Proofs.Pass.Course
import Mathlib.Data.List.Chain
/-!
# Which generator is selected

A pass goes over its generators in four loops: to prepare, to define fields, to ask for expressions and to finish.
In each loop a generator has one turn, and is selected when the turn begins. Nothing is selected between the calls
of a turn, so a generator that selects another one leaves it selected for the rest of its turn.
-/

namespace BundleForge

/-- The loops of a pass over its generators. -/
inductive Round where
  | preparing
  | defining
  | assigning
  | finishing
deriving DecidableEq

def Step.round : Step → Round
  | init | prepare _ => .preparing
  | createFields => .defining
  | createAssignment _ => .assigning
  | finish => .finishing

def Call.turn (call : Call) : GeneratorId × Round := (call.generator, call.step.round)

namespace Pass

/-- A generator is selected when its turn begins, and each further call of the turn finds selected what the call
before it has left selected. -/
structure Selects (journal : Journal) : Prop where
  first : ∀ call ∈ journal.head?, call.active = some call.generator
  next : journal.IsChain fun before call =>
    call.active = if call.turn = before.turn then before.left else some call.generator

/-- While no generator selects another one, every generator is selected whenever it is called. -/
theorem Selects.active {journal : Journal} (h : Selects journal)
    (hkeeps : ∀ call ∈ journal, call.active = some call.generator → call.left = some call.generator) :
    ∀ call ∈ journal, call.active = some call.generator := by
  obtain ⟨hfirst, hnext⟩ := h
  induction journal with
  | nil => simp
  | cons call rest ih =>
    rw [List.forall_mem_cons] at hkeeps ⊢
    have hown : call.active = some call.generator := hfirst call rfl
    rw [List.isChain_cons] at hnext
    refine ⟨hown, ih hkeeps.2 (fun later hlater => ?_) hnext.2⟩
    have hactive := hnext.1 later hlater
    split at hactive
    · rename_i hturn
      rw [hactive, hkeeps.1 hown, show later.generator = call.generator from congrArg Prod.fst hturn]
    · exact hactive

/-! ### Turns -/

/-- The rest of a turn, with the generator that is selected when it begins. -/
structure Within (turn : GeneratorId × Round) (active : Option GeneratorId) (journal : Journal) : Prop where
  turn : ∀ call ∈ journal, call.turn = turn
  first : ∀ call ∈ journal.head?, call.active = active
  next : journal.IsChain fun before call => call.active = before.left

theorem Within.nil (turn : GeneratorId × Round) (active : Option GeneratorId) : Within turn active [] :=
  ⟨by simp, by simp, .nil⟩

theorem Within.cons {α : Type} (running : Running) (step : Step) (session : Session)
    {result : Except ResourceError α} {next : Session} {turn : GeneratorId × Round} {journal : Journal}
    (hturn : (running.id, step.round) = turn) (h : Within turn next.active journal) :
    Within turn session.active (running.entry step session result next :: journal) where
  turn := List.forall_mem_cons.2 ⟨hturn, h.turn⟩
  first _ hfirst := Option.some.inj hfirst ▸ rfl
  next := List.isChain_cons.2 ⟨h.first, h.next⟩

/-- The turns in which the calls of a journal are made, in this order. -/
inductive Turns : List (GeneratorId × Round) → Journal → Prop
  | nil : Turns [] []
  | cons {turn : GeneratorId × Round} {turns : List (GeneratorId × Round)} {calls more : Journal}
      (own : Within turn (some turn.1) calls) (others : Turns turns more) : Turns (turn :: turns) (calls ++ more)

variable {turns others : List (GeneratorId × Round)} {journal more : Journal}

theorem Turns.append (h : Turns turns journal) (h' : Turns others more) :
    Turns (turns ++ others) (journal ++ more) := by
  induction h with
  | nil => exact h'
  | cons own others ih =>
    rw [List.append_assoc]
    exact .cons own ih

theorem Turns.turn_mem (h : Turns turns journal) : ∀ call ∈ journal, call.turn ∈ turns := by
  induction h with
  | nil => simp
  | cons own others ih =>
    rw [List.forall_mem_append]
    exact ⟨fun call hcall => own.turn call hcall ▸ List.mem_cons_self,
      fun call hcall => List.mem_cons_of_mem _ (ih call hcall)⟩

/-- A generator that has each turn only once is selected anew in each. -/
theorem Turns.selects (h : Turns turns journal) (hnodup : turns.Nodup) : Selects journal := by
  induction h with
  | nil => exact ⟨by simp, .nil⟩
  | @cons turn turns mine rest own others ih =>
    rw [List.nodup_cons] at hnodup
    obtain ⟨hfirst, hnext⟩ := ih hnodup.2
    have hown : ∀ call ∈ mine.head?, call.active = some call.generator := fun call hcall => by
      rw [own.first call hcall, ← own.turn call (List.mem_of_mem_head? hcall)]
      rfl
    constructor
    · intro call hcall
      rw [List.head?_append, Option.mem_def, Option.or_eq_some_iff] at hcall
      rcases hcall with hmine | ⟨-, hrest⟩
      · exact hown call hmine
      · exact hfirst call hrest
    · refine List.isChain_append.2 ⟨?_, hnext, fun before hbefore call hcall => ?_⟩
      · refine own.next.imp_of_mem_imp fun before call hbefore hcall hactive => ?_
        rw [if_pos ((own.turn call hcall).trans (own.turn before hbefore).symm), hactive]
      · have hturn : call.turn ≠ before.turn := by
          rw [own.turn before (List.mem_of_mem_getLast? hbefore)]
          rintro rfl
          exact hnodup.1 (others.turn_mem call (List.mem_of_mem_head? hcall))
        rw [if_neg hturn]
        exact hfirst call hcall

/-! ### The turns of a pass -/

/-- The turns that the generators of some tasks have in one loop. -/
def turnsIn (round : Round) (tasks : List Task) : List (GeneratorId × Round) :=
  tasks.map fun task => (task.kind.id, round)

theorem nodup_turnsIn {tasks : List Task} (h : (tasks.map (·.kind.id)).Nodup) :
    ([.preparing, .defining, .assigning, .finishing].flatMap (turnsIn · tasks)).Nodup := by
  rw [List.nodup_flatMap]
  constructor
  · intro round _
    have hmap := h.map (f := fun id : GeneratorId => (id, round)) fun id other hsame => congrArg Prod.fst hsame
    rwa [List.map_map] at hmap
  · have hrounds : [Round.preparing, .defining, .assigning, .finishing].Nodup := by decide
    refine hrounds.imp fun {round other} hne turn hmem hmem' => ?_
    obtain ⟨_, -, rfl⟩ := List.mem_map.1 hmem
    obtain ⟨_, -, hsame⟩ := List.mem_map.1 hmem'
    exact hne (congrArg Prod.snd hsame).symm

section

variable (context : Context)

theorem within_prepareEach {id : GeneratorId} {running : Running} (hid : running.id = id) (session : Session)
    (accessors : List Accessor) :
    Within (id, .preparing) session.active (prepareEach context session running accessors).2.2 := by
  induction accessors generalizing session running with
  | nil => exact .nil _ _
  | cons accessor rest ih =>
    refine .cons running (.prepare accessor) session (congrArg (·, _) hid) ?_
    apply ih
    exact hid

theorem within_prepareTask (session : Session) (task : Task) :
    Within (task.kind.id, .preparing) (some task.kind.id) (prepareTask context session task).2.2 := by
  let running := Running.ofTask task
  unfold prepareTask
  dsimp only [Running.call]
  split
  · exact .cons running .init (session.select running.id) rfl (.nil _ _)
  · refine .cons running .init (session.select running.id) rfl ?_
    apply within_prepareEach
    rfl

theorem turns_prepareAll (session : Session) (tasks : List Task) :
    Turns (turnsIn .preparing tasks) (prepareAll context session tasks).2.2 := by
  induction tasks generalizing session with
  | nil => exact .nil
  | cons task rest ih => exact .cons (within_prepareTask context session task) (ih _)

theorem turns_createFields (session : Session) (fields : FieldRegistry) (generators : List Running) :
    Turns (turnsIn .defining (generators.map Running.task))
      (createFields context session fields generators).2.2.2 := by
  induction generators generalizing session fields with
  | nil => exact .nil
  | cons running rest ih =>
    refine @Turns.cons _ _ [_] _ ?_ (ih _ _)
    exact .cons running .createFields (session.select running.id) rfl (.nil _ _)

theorem within_asksEach {id : GeneratorId} {running : Running} (hid : running.id = id) (session : Session)
    (accessors : List Accessor) :
    Within (id, .assigning) session.active (asksEach context session running accessors) := by
  induction accessors generalizing session running with
  | nil => exact .nil _ _
  | cons accessor rest ih =>
    refine .cons running (.createAssignment accessor) session (congrArg (·, _) hid) ?_
    apply ih
    exact hid

theorem turns_asksAll (session : Session) (generators : List Running) :
    Turns (turnsIn .assigning (generators.map Running.task)) (asksAll context session generators) := by
  induction generators generalizing session with
  | nil => exact .nil
  | cons running rest ih =>
    exact .cons (within_asksEach context rfl (session.select running.id) running.accessors) (ih _)

theorem turns_finishAll (session : Session) (generators : List Running) :
    Turns (turnsIn .finishing (generators.map Running.task)) (finishAll context session generators).2.2 := by
  induction generators generalizing session with
  | nil => exact .nil
  | cons running rest ih =>
    refine @Turns.cons _ _ [_] _ ?_ (ih _)
    exact .cons running .finish (session.select running.id) rfl (.nil _ _)

end

section

variable (plan : Plan) (bundle : Bundle) (locale : Option String) (session : Session) (tasks : List Task)

theorem tasks_defined :
    (defined plan bundle locale session tasks).2.2.1.map Running.task = tasks :=
  (tasks_createFields _ _ _ _).trans (tasks_prepareAll _ session tasks)

theorem tasks_answered :
    (answered plan bundle locale session tasks).2.1.map Running.task = tasks :=
  (tasks_answersAll _ _ _).trans (tasks_defined plan bundle locale session tasks)

theorem turns_emitting :
    Turns (turnsIn .defining tasks ++ turnsIn .assigning tasks) (emitting plan bundle locale session tasks) := by
  have hdefining := turns_createFields (plan.context bundle locale)
    (prepared plan bundle locale session tasks).1 .empty (prepared plan bundle locale session tasks).2.1
  have htasks : (prepared plan bundle locale session tasks).2.1.map Running.task = tasks :=
    tasks_prepareAll _ session tasks
  have hassigning := turns_asksAll (plan.context bundle locale)
    (defined plan bundle locale session tasks).1 (defined plan bundle locale session tasks).2.2.1
  rw [htasks] at hdefining
  rw [tasks_defined] at hassigning
  exact hdefining.append hassigning

theorem turns_finishing : Turns (turnsIn .finishing tasks) (finishing plan bundle locale session tasks) := by
  have hfinishing := turns_finishAll (plan.context bundle locale)
    (answered plan bundle locale session tasks).1 (answered plan bundle locale session tasks).2.1
  rwa [tasks_answered] at hfinishing

end

/-- Whatever its generators do, a pass selects each of them when its turn begins and at no other time. -/
theorem Course.selects {plan : Plan} {bundle : Bundle} {locale : Option String} {session : Session}
    {tasks : List Task} {work : Work} (h : Course plan bundle locale session tasks work)
    (hids : (tasks.map (·.kind.id)).Nodup) : Selects work.journal := by
  have hpreparing := turns_prepareAll (plan.context bundle locale) session tasks
  have hemitting := hpreparing.append (turns_emitting plan bundle locale session tasks)
  have hfinishing := hemitting.append (turns_finishing plan bundle locale session tasks)
  have hall := nodup_turnsIn hids
  simp only [List.flatMap_cons, List.flatMap_nil, List.append_nil, ← List.append_assoc] at hall hemitting hfinishing
  have hemitted := (List.nodup_append.1 hall).1
  have hprepared := (List.nodup_append.1 (List.nodup_append.1 hemitted).1).1
  cases h with
  | preparing failed => exact hpreparing.selects hprepared
  | emitting prepare failed => exact hemitting.selects hemitted
  | finishing prepare emit failed => exact hfinishing.selects hall
  | done prepare emit finish => exact hfinishing.selects hall

end Pass

end BundleForge
