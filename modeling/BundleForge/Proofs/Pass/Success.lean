import BundleForge.Proofs.Pass.Course
/-!
# Passes that succeed

A pass that generates its type has been granted its claim, has refused no accessor, and has met no
error in any phase. What it commits is then determined: it is the source of `assembly`, which is put
together from the fields that were defined and from the one answer that was given for each accessor.
-/

namespace BundleForge.Pass

variable {plan : Plan} {bundle : Bundle} {locale : Option String}

theorem work_ok {session : Session} {tasks : List Task} {source : String}
    (h : (work plan bundle locale session tasks).result = .ok source) :
    (∀ call ∈ (prepareAll (plan.context bundle locale) session tasks).2.2, call.failure = none) ∧
    (∀ answer ∈ answersOf plan bundle locale session tasks,
      ∃ expression, answer.result = .ok expression) ∧
    source = (assembly plan bundle locale session tasks).source := by
  have hcourse := course_work plan bundle locale session tasks
  generalize work plan bundle locale session tasks = work at h hcourse
  cases hcourse with
  | preparing failed => simp at h
  | emitting prepare failed => simp at h
  | finishing prepare emit failed => simp at h
  | done prepare emit finish =>
    refine ⟨prepare, ?_, (Except.ok.inj h).symm⟩
    intro answer hanswer
    obtain ⟨call, hcall, houtcome⟩ := exists_ask _ hanswer
    have hfailure : call.failure = Running.error? answer.result := congrArg (·.2.2) houtcome
    exact error?_eq_none_iff.1 (hfailure ▸ emit call (List.mem_append_right _ hcall))

theorem subjects_answersOf (session : Session) (tasks : List Task) :
    (answersOf plan bundle locale session tasks).map (fun a => (a.kind, a.accessor)) =
      tasks.flatMap fun task => task.accessors.map (task.kind, ·) := by
  unfold answersOf defined
  dsimp only
  rw [subjects_answersAll, tasks_createFields, tasks_prepareAll]

variable {σ : Type} [Sink σ]

/-- The sink takes a source from a pass, under the claim it has granted to it. -/
def Commits (plan : Plan) (bundle : Bundle) (locale : Option String) (world : World σ)
    (source : String) : Prop :=
  ∃ claim granted path,
    Sink.claim world.sink (wanted bundle locale) = (.ok (some claim), granted) ∧
    Sink.commit granted (worked plan bundle locale world).session.files claim source =
      (.ok path, (run plan bundle locale world).world.files,
        (run plan bundle locale world).world.sink)

/-- A pass that generated its type refused no accessor, went through all its phases and committed the
source that came out of them. -/
theorem run_generated {world : World σ} {type : GeneratedType}
    (h : (run plan bundle locale world).result = .generated type) :
    (Dispatch.ofBundle plan.registry plan.hierarchy bundle).refused = [] ∧
    ∃ source, (worked plan bundle locale world).result = .ok source ∧
      Commits plan bundle locale world source := by
  unfold Commits
  have hends := ends_run plan bundle locale world
  generalize run plan bundle locale world = pass at h hends ⊢
  cases hends with
  | unclaimed claimed => simp [failWith] at h
  | skipped claimed => simp at h
  | refused claimed refused => simp [failWith] at h
  | stopped claimed admitted failed => simp [failWith] at h
  | unwritten claimed admitted made refused => simp [failWith] at h
  | generated claimed admitted made taken =>
    exact ⟨admitted, _, made, _, _, _, claimed, taken⟩

theorem run_skipped {world : World σ} (h : (run plan bundle locale world).result = .skipped) :
    (Sink.claim world.sink (wanted bundle locale)).1 = .ok none ∧
    (run plan bundle locale world).world =
      { world with sink := (Sink.claim world.sink (wanted bundle locale)).2 } := by
  have hends := ends_run plan bundle locale world
  generalize run plan bundle locale world = pass at h hends ⊢
  cases hends with
  | unclaimed claimed => simp [failWith] at h
  | skipped claimed =>
    rw [claimed]
    exact ⟨rfl, rfl⟩
  | refused claimed refused => simp [failWith] at h
  | stopped claimed admitted failed => simp [failWith] at h
  | unwritten claimed admitted made refused => simp [failWith] at h
  | generated claimed admitted made taken => simp at h

theorem commits_assembly {world : World σ} {type : GeneratedType}
    (h : (run plan bundle locale world).result = .generated type) :
    Commits plan bundle locale world
      (assembly plan bundle locale (opening world) (tasksOf plan bundle)).source := by
  obtain ⟨-, source, hsource, hcommits⟩ := run_generated h
  rwa [← (work_ok hsource).2.2]

theorem filter_answersOf (locale : Option String) (session : Session)
    (hrefused : (Dispatch.ofBundle plan.registry plan.hierarchy bundle).refused = [])
    {accessor : Accessor}
    (honly : bundle.accessors.filter (·.name = accessor.name) = [accessor]) :
    ∃ answer : Answer,
      (answersOf plan bundle locale session (tasksOf plan bundle)).filter
        (·.accessor.name = accessor.name) = [answer] ∧
      answer.accessor = accessor ∧
      (∃ task ∈ tasksOf plan bundle, answer.kind = task.kind) ∧
      Dispatch.idFor plan.registry plan.hierarchy accessor = some answer.kind.id := by
  have hmem : accessor ∈ bundle.accessors :=
    List.mem_of_mem_filter (honly ▸ List.mem_singleton_self accessor)
  obtain ⟨task, htask, hid⟩ := Dispatch.exists_task_of_refused_eq_nil hrefused hmem
  have hsubjects := (Dispatch.grouped_ofBundle plan.registry plan.hierarchy bundle).filter_subjects
    honly htask hid
  have hasked : (answersOf plan bundle locale session (tasksOf plan bundle)).map
      (fun a => (a.kind, a.accessor)) = _ := subjects_answersOf session (tasksOf plan bundle)
  rw [← tasksOf, ← hasked, List.filter_map] at hsubjects
  obtain ⟨answer, hanswer, hpair⟩ := List.map_eq_singleton_iff.1 hsubjects
  obtain ⟨hkind, haccessor⟩ := Prod.mk.inj hpair
  exact ⟨answer, hanswer, haccessor, ⟨task, htask, hkind⟩, hkind ▸ hid⟩

end BundleForge.Pass
