import BundleForge.Proofs.Pass.Memories
import BundleForge.Proofs.Verdict
/-!
# What is reported while a pass prepares

While a pass prepares its accessors, each generator goes through the accessors of its kind one after the other
and remembers what it finds. As generators judge accessors by their resources alone, what is reported is put
together from what is reported of single accessors, in the order in which they are prepared.
-/

namespace BundleForge

theorem GeneratorKind.eq_of_id {kind other : GeneratorKind} (hkind : kind ∈ builtIn) (hother : other ∈ builtIn)
    (h : kind.id = other.id) : kind = other := by
  have hnodup : (builtIn.map (·.id)).Nodup := by decide
  exact List.inj_on_of_nodup_map hnodup hkind hother h

theorem Registry.BuiltIn.resolve_of_mem {registry : Registry} (h : registry.BuiltIn) {hierarchy : Hierarchy}
    {bundle : Bundle} {task : Task} (htask : task ∈ (Dispatch.ofBundle registry hierarchy bundle).tasks)
    {accessor : Accessor} (hserved : accessor ∈ task.accessors) :
    registry.resolve hierarchy accessor.kind = .ok task.kind := by
  rw [(Dispatch.grouped_ofBundle registry hierarchy bundle).accessors_eq task htask, List.mem_filter] at hserved
  obtain ⟨kind, hkind, hid⟩ := Dispatch.idFor_eq_some_iff.1 (of_decide_eq_true hserved.2)
  rw [hkind, GeneratorKind.eq_of_id (h kind (Dispatch.mem_of_resolve hkind)) (h.kind_mem task htask) hid]

def Bundle.only (bundle : Bundle) (accessor : Accessor) : Bundle := { bundle with accessors := [accessor] }

namespace Pass

open Generator (Judges Judgement)

variable {files : FileSystem} {search : SearchPath} {plan : Plan} {bundle : Bundle} {locale : Option String}
  {session : Session}

/-! ### Preparing -/

/-- The resource that an accessor means, as long as files and search path stay as they are. -/
def Means (files : FileSystem) (search : SearchPath) (plan : Plan) (bundle : Bundle) (locale : Option String)
    (accessor : Accessor) (resource : Resource) : Prop :=
  search.resource files bundle accessor (plan.hierarchy.defaultExtensions accessor.kind)
    (accessor.effectiveLocale locale) = .ok resource

/-- What is reported of an accessor that is judged by its resource. -/
def verdict (files : FileSystem) (search : SearchPath) (plan : Plan) (bundle : Bundle) (locale : Option String)
    (judge : Judgement) (accessor : Accessor) : List Diagnostic :=
  ((judge accessor (search.resource files bundle accessor (plan.hierarchy.defaultExtensions accessor.kind)
    (accessor.effectiveLocale locale))).map fun error =>
      ⟨bundle.name, some accessor.name, .preparing, error⟩).toList

theorem diagnostics_cons (phase : Phase) (call : Call) (journal : Journal) :
    diagnostics bundle phase (call :: journal) =
      (call.failure.map fun error =>
        ⟨bundle.name, call.step.accessor?.map (·.name), phase, error⟩).toList ++
          diagnostics bundle phase journal := by
  cases hfailure : call.failure with
  | none => exact List.filterMap_cons_none (by rw [hfailure]; rfl)
  | some error => exact List.filterMap_cons_some (by rw [hfailure]; rfl)

section

variable {kind : GeneratorKind} {Seen : Bool → Resource → Prop} {Fair : kind.generator.Memory → Prop}
  {judge : Judgement} {accessors : List Accessor} (hjudges : kind.generator.Judges files search Seen Fair judge)
  (hinline : plan.deployment = .inline)
  (hseen : ∀ accessor ∈ accessors, ∀ resource, Means files search plan bundle locale accessor resource →
    Seen accessor.embed resource)
include hjudges hinline hseen

theorem diagnostics_prepareEach (hover : session.Over files search) {memory : kind.generator.Memory}
    (hfair : Fair memory) (served : List Accessor) :
    let prepared := prepareEach (plan.context bundle locale) session ⟨kind, memory, served⟩ accessors
    prepared.1.Over files search ∧ diagnostics bundle .preparing prepared.2.2 =
      accessors.flatMap (verdict files search plan bundle locale judge) := by
  induction accessors generalizing session memory with
  | nil => exact ⟨hover, rfl⟩
  | cons accessor rest ih =>
    rw [List.forall_mem_cons] at hseen
    obtain ⟨result, next, last, hprepare, hnext, hlast, herror⟩ := hjudges.prepare
      (plan.context bundle locale) accessor (accessor.effectiveLocale locale) hinline hover hfair hseen.1
    have hown : preparation (plan.context bundle locale) kind accessor session memory = (result, next, last) :=
      hprepare
    obtain ⟨hsession, hrest⟩ := ih hseen.2 hnext hlast
    rw [prepareEach_cons, preparingCall, hown]
    refine ⟨hsession, ?_⟩
    rw [diagnostics_cons, hrest, List.flatMap_cons]
    dsimp only
    rw [herror]
    rfl

theorem diagnostics_prepareTask (hover : session.Over files search) :
    let prepared := prepareTask (plan.context bundle locale) session ⟨kind, accessors⟩
    prepared.1.Over files search ∧ diagnostics bundle .preparing prepared.2.2 =
      accessors.flatMap (verdict files search plan bundle locale judge) := by
  obtain ⟨next, memory, hinit, hnext, hfair⟩ := hjudges.init (plan.context bundle locale) rfl
    (hover.select kind.id)
  have hstarting : starting (plan.context bundle locale) kind session = (.ok (), next, memory) := hinit
  obtain ⟨hprepare, -⟩ := prepareTask_of_ok (plan.context bundle locale) accessors (congrArg Prod.fst hstarting)
  obtain ⟨hsession, hrest⟩ := diagnostics_prepareEach hjudges hinline hseen hnext hfair accessors
  rw [hprepare, hstarting]
  refine ⟨hsession, ?_⟩
  rw [diagnostics_cons, hrest, startingCall, hstarting]
  rfl

end

/-- A resource is found for some accessor of the bundle, which a generator serves and which decides like that on
embedding. -/
def SeenBy (files : FileSystem) (search : SearchPath) (plan : Plan) (bundle : Bundle) (locale : Option String)
    (kind : GeneratorKind) (embed : Bool) (resource : Resource) : Prop :=
  ∃ accessor ∈ bundle.accessors, plan.registry.resolve plan.hierarchy accessor.kind = .ok kind ∧
    accessor.embed = embed ∧ Means files search plan bundle locale accessor resource

/-- All generators that there are judge accessors by their resources, as long as they only see certain resources. -/
def JudgeBy (files : FileSystem) (search : SearchPath) (Seen : GeneratorKind → Bool → Resource → Prop)
    (judge : GeneratorKind → Judgement) : Prop :=
  ∀ kind ∈ GeneratorKind.builtIn, ∃ Fair, kind.generator.Judges files search (Seen kind) Fair (judge kind)

theorem exists_judgeBy {Seen : GeneratorKind → Bool → Resource → Prop}
    (halike : Generator.AlikeSmall (Seen .image)) : ∃ judge, JudgeBy files search Seen judge := by
  choose! judge hjudge using fun (kind : GeneratorKind) (hkind : kind ∈ GeneratorKind.builtIn) =>
    GeneratorKind.exists_judges hkind halike
  exact ⟨judge, hjudge⟩

variable {Seen : GeneratorKind → Bool → Resource → Prop} {judge : GeneratorKind → Judgement}

theorem diagnostics_prepareAll (hjudge : JudgeBy files search Seen judge) (hinline : plan.deployment = .inline)
    {tasks : List Task} (hkinds : ∀ task ∈ tasks, task.kind ∈ GeneratorKind.builtIn)
    (hseen : ∀ task ∈ tasks, ∀ accessor ∈ task.accessors, ∀ resource,
      Means files search plan bundle locale accessor resource → Seen task.kind accessor.embed resource)
    (hover : session.Over files search) :
    diagnostics bundle .preparing (prepareAll (plan.context bundle locale) session tasks).2.2 =
      tasks.flatMap fun task =>
        task.accessors.flatMap (verdict files search plan bundle locale (judge task.kind)) := by
  induction tasks generalizing session with
  | nil => rfl
  | cons task rest ih =>
    rw [List.forall_mem_cons] at hkinds hseen
    obtain ⟨Fair, hjudges⟩ := hjudge task.kind hkinds.1
    obtain ⟨hnext, hown⟩ := diagnostics_prepareTask hjudges hinline hseen.1 hover
    rw [List.flatMap_cons, ← hown, ← ih hkinds.2 hseen.2 hnext]
    exact List.filterMap_append

/-- The accessors of a bundle in the order in which they are prepared. -/
def served (plan : Plan) (bundle : Bundle) : List Accessor := (tasksOf plan bundle).flatMap (·.accessors)

def faults (plan : Plan) (bundle : Bundle) (locale : Option String) (session : Session) : List Diagnostic :=
  diagnostics bundle .preparing (preparing plan bundle locale session (tasksOf plan bundle))

def blame (files : FileSystem) (search : SearchPath) (plan : Plan) (bundle : Bundle) (locale : Option String)
    (judge : GeneratorKind → Judgement) (accessor : Accessor) : List Diagnostic :=
  match plan.registry.resolve plan.hierarchy accessor.kind with
  | .ok kind => verdict files search plan bundle locale (judge kind) accessor
  | .error _ => []

theorem of_mem_blame {accessor : Accessor} {diagnostic : Diagnostic}
    (h : diagnostic ∈ blame files search plan bundle locale judge accessor) :
    diagnostic.accessor = some accessor.name ∧ diagnostic.phase = .preparing := by
  unfold blame verdict at h
  split at h
  · obtain ⟨error, -, rfl⟩ := Option.map_eq_some_iff.1 (Option.mem_toList.1 h)
    exact ⟨rfl, rfl⟩
  · exact absurd h List.not_mem_nil

theorem faults_eq (hjudge : JudgeBy files search Seen judge) (hinline : plan.deployment = .inline)
    (hbuiltIn : plan.registry.BuiltIn)
    (hseen : ∀ kind embed resource, SeenBy files search plan bundle locale kind embed resource →
      Seen kind embed resource)
    (hover : session.Over files search) :
    faults plan bundle locale session =
      (served plan bundle).flatMap (blame files search plan bundle locale judge) := by
  have hkinds : ∀ task ∈ tasksOf plan bundle, task.kind ∈ GeneratorKind.builtIn := hbuiltIn.kind_mem
  have hserved : ∀ task ∈ tasksOf plan bundle, ∀ accessor ∈ task.accessors, ∀ resource,
      Means files search plan bundle locale accessor resource → Seen task.kind accessor.embed resource := by
    intro task htask accessor hmem resource hmeans
    exact hseen _ _ _ ⟨accessor, (served_sublist htask).subset hmem, hbuiltIn.resolve_of_mem htask hmem, rfl, hmeans⟩
  have hfaults : faults plan bundle locale session = _ :=
    diagnostics_prepareAll hjudge hinline hkinds hserved hover
  rw [hfaults, served, List.flatMap_assoc]
  refine List.flatMap_congr fun task htask => List.flatMap_congr fun accessor hserved => ?_
  rw [blame, hbuiltIn.resolve_of_mem htask hserved]

/-- Every accessor that is not refused is prepared once. -/
theorem perm_served (hdispatch : (Dispatch.ofBundle plan.registry plan.hierarchy bundle).refused = [])
    {accessors : List Accessor} (hsubset : accessors ⊆ bundle.accessors) :
    (served plan { bundle with accessors }).Perm accessors :=
  Dispatch.perm_foldl_add fun accessor hmem => Dispatch.refused_eq_nil_iff.1 hdispatch accessor (hsubset hmem)

theorem tasksOf_alike {accessor : Accessor} {rest : List Accessor} {kind : GeneratorKind}
    (hkinds : ∀ other ∈ accessor :: rest, plan.registry.resolve plan.hierarchy other.kind = .ok kind) :
    tasksOf plan { bundle with accessors := accessor :: rest } = [⟨kind, accessor :: rest⟩] := by
  have hfoldl : ∀ served, (rest.foldl (Dispatch.add plan.registry plan.hierarchy) ⟨[⟨kind, served⟩], []⟩).tasks =
      [⟨kind, served ++ rest⟩] := by
    rw [List.forall_mem_cons] at hkinds
    replace hkinds := hkinds.2
    induction rest with
    | nil => intro served; rw [List.append_nil]; rfl
    | cons other rest ih =>
      rw [List.forall_mem_cons] at hkinds
      intro served
      rw [List.foldl_cons, Dispatch.add, hkinds.1, List.append_cons, ← ih hkinds.2]
      simp only [Dispatch.addTo, if_true]
  rw [tasksOf, Dispatch.ofBundle, List.foldl_cons, Dispatch.add, hkinds accessor List.mem_cons_self]
  exact hfoldl [accessor]

theorem tasksOf_only {accessor : Accessor} {kind : GeneratorKind}
    (hkind : plan.registry.resolve plan.hierarchy accessor.kind = .ok kind) :
    tasksOf plan (bundle.only accessor) = [⟨kind, [accessor]⟩] :=
  tasksOf_alike fun _ hmem => List.mem_singleton.1 hmem ▸ hkind

theorem served_only {accessor : Accessor} {kind : GeneratorKind}
    (hkind : plan.registry.resolve plan.hierarchy accessor.kind = .ok kind) :
    served plan (bundle.only accessor) = [accessor] := by
  rw [served, tasksOf_only hkind]
  rfl

/-! ### A single accessor -/

section

variable {accessor : Accessor} {kind : GeneratorKind} {next prepared : Session}
  {memory last : kind.generator.Memory}

theorem prepareAll_only {result : Except ResourceError Unit}
    (hinit : starting (plan.context bundle locale) kind session = (.ok (), next, memory))
    (hprepare : preparation (plan.context bundle locale) kind accessor next memory = (result, prepared, last)) :
    prepareAll (plan.context bundle locale) session [⟨kind, [accessor]⟩] =
      (prepared, [⟨kind, last, [accessor]⟩], [⟨kind.id, .init, some kind.id, none, next.active⟩,
        ⟨kind.id, .prepare accessor, next.active, Running.error? result, prepared.active⟩]) := by
  have hstarted : (starting (plan.context bundle locale) kind session).1 = .ok () := congrArg Prod.fst hinit
  rw [prepareAll, (prepareTask_of_ok _ [accessor] hstarted).1, startingCall, hinit, prepareEach_cons, preparingCall]
  dsimp only
  rw [hprepare]
  rfl

theorem defined_only {result : Except ResourceError Unit} {later : Session} {kept : kind.generator.Memory}
    {fields : FieldRegistry} {calls : Journal}
    (hprepareAll : prepareAll (plan.context bundle locale) session [⟨kind, [accessor]⟩] =
      (prepared, [⟨kind, last, [accessor]⟩], calls))
    (hcreate : defining (plan.context bundle locale) kind prepared last .empty = ((result, later, kept), fields)) :
    defined plan bundle locale session [⟨kind, [accessor]⟩] = (later, fields,
      [⟨kind, kept, [accessor]⟩],
      [⟨kind.id, .createFields, some kind.id, Running.error? result, later.active⟩]) := by
  rw [defined, hprepareAll]
  dsimp only
  rw [createFields]
  dsimp only [Running.id]
  rw [← defining, hcreate]
  rfl

theorem answered_only {result : Except ResourceError String} {later : Session} {kept : kind.generator.Memory}
    {fields : FieldRegistry} {calls : Journal} {answering : Session × kind.generator.Memory}
    (hdefined : defined plan bundle locale session [⟨kind, [accessor]⟩] =
      (later, fields, [⟨kind, kept, [accessor]⟩], calls))
    (hassign : kind.generator.createAssignment accessor (accessor.effectiveLocale locale)
      (plan.context bundle locale) (later.select kind.id) kept = (result, answering)) :
    answered plan bundle locale session [⟨kind, [accessor]⟩] = (answering.1,
      [⟨kind, answering.2, [accessor]⟩], [⟨kind, accessor, result⟩]) := by
  have heach : answersEach (plan.context bundle locale) (later.select kind.id) ⟨kind, kept, [accessor]⟩ [accessor] =
      let own := kind.generator.createAssignment accessor (accessor.effectiveLocale locale)
        (plan.context bundle locale) (later.select kind.id) kept
      (own.2.1, ⟨kind, own.2.2, [accessor]⟩, [⟨kind, accessor, own.1⟩]) := rfl
  rw [hassign] at heach
  rw [answered, hdefined, answersAll]
  dsimp only [Running.id]
  rw [heach]
  rfl

/-- A single accessor whose calls all succeed makes a source. -/
theorem exists_source_of_calls {later : Session} {kept : kind.generator.Memory} {fields : FieldRegistry}
    {expression : String} {answering : Session × kind.generator.Memory}
    (hinit : starting (plan.context bundle locale) kind session = (.ok (), next, memory))
    (hprepare : preparation (plan.context bundle locale) kind accessor next memory = (.ok (), prepared, last))
    (hcreate : defining (plan.context bundle locale) kind prepared last .empty = ((.ok (), later, kept), fields))
    (hassign : kind.generator.createAssignment accessor (accessor.effectiveLocale locale)
      (plan.context bundle locale) (later.select kind.id) kept = (.ok expression, answering))
    (hfinish : ∀ context session memory, (kind.generator.finish context session memory).1 = .ok ()) :
    ∃ source, (work plan bundle locale session [⟨kind, [accessor]⟩]).result = .ok source := by
  have hprepareAll := prepareAll_only hinit hprepare
  have hdefined := defined_only hprepareAll hcreate
  have hanswered := answered_only hdefined hassign
  have hcourse := course_work plan bundle locale session [⟨kind, [accessor]⟩]
  generalize work plan bundle locale session [⟨kind, [accessor]⟩] = made at hcourse ⊢
  cases hcourse with
  | preparing failed =>
    refine absurd (fun call hcall => ?_) failed
    rw [preparing, Pass.prepared, hprepareAll] at hcall
    simp only [List.mem_cons, List.not_mem_nil, or_false] at hcall
    rcases hcall with rfl | rfl <;> rfl
  | emitting _ failed =>
    refine absurd (fun call hcall => ?_) failed
    rcases List.mem_append.1 hcall with hdefining | hasked
    · rw [hdefined] at hdefining
      obtain rfl := List.mem_singleton.1 hdefining
      rfl
    · have houtcome := List.mem_map_of_mem (f := Call.outcome) hasked
      rw [outcomes_asksAll] at houtcome
      change call.outcome ∈ (answered plan bundle locale session _).2.2.map Answer.outcome at houtcome
      rw [hanswered] at houtcome
      exact congrArg (·.2.2) (List.mem_singleton.1 houtcome)
  | finishing _ _ failed =>
    refine absurd (fun call hcall => ?_) failed
    rw [finishing, finished, hanswered] at hcall
    obtain rfl := List.mem_singleton.1 hcall
    exact congrArg Running.error? (hfinish _ _ _)
  | done => exact ⟨_, rfl⟩

end

theorem exists_source_only {accessor : Accessor} {kind : GeneratorKind} (hjudge : JudgeBy files search Seen judge)
    (hinline : plan.deployment = .inline) (hkind : kind ∈ GeneratorKind.builtIn)
    (hseen : ∀ resource, Means files search plan bundle locale accessor resource → Seen kind accessor.embed resource)
    (hover : session.Over files search)
    (hclean : Clean (preparing plan bundle locale session [⟨kind, [accessor]⟩])) :
    ∃ source, (work plan bundle locale session [⟨kind, [accessor]⟩]).result = .ok source := by
  obtain ⟨Fair, hjudges⟩ := hjudge kind hkind
  obtain ⟨next, memory, hinit, hnext, hfair⟩ := hjudges.init (plan.context bundle locale) rfl
    (hover.select kind.id)
  obtain ⟨result, prepared, last, hprepare, -, -, -⟩ := hjudges.prepare (plan.context bundle locale)
    accessor (accessor.effectiveLocale locale) hinline hnext hfair hseen
  have hprepareAll := prepareAll_only hinit hprepare
  rw [preparing, Pass.prepared, hprepareAll] at hclean
  obtain ⟨_, rfl⟩ := error?_eq_none_iff.1 (hclean _ (List.mem_cons_of_mem _ List.mem_cons_self))
  obtain ⟨later, kept, fields, hcreate, expression, hanswer⟩ :=
    hjudges.emit hfair hprepare (prepared.select kind.id) .empty
  obtain ⟨answering, hassign⟩ := hanswer (later.select kind.id)
  exact exists_source_of_calls hinit hprepare hcreate hassign hjudges.finish

end Pass

end BundleForge
