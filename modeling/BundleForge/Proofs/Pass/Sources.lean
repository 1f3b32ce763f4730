import BundleForge.Proofs.Generator
import BundleForge.Proofs.Pass.Calls
/-!
# Passes and the sources of earlier passes

The generators of a pass are called one after the other, all of them on one session. If none of them changes
a generated source in a call, none is changed by the calls of a journal, nor by the work of the whole pass.
-/

namespace BundleForge

theorem Running.kind_perform (running : Running) (context : Context) (session : Session)
    (fields : FieldRegistry) (step : Step) :
    (running.perform context session fields step).running.kind = running.kind := by
  cases step <;> rfl

theorem Running.grows_perform {running : Running} (hkeeps : running.kind.generator.KeepsSources)
    (context : Context) (session : Session) (fields : FieldRegistry) (step : Step) :
    session.Grows (running.perform context session fields step).session := by
  cases step with
  | init => exact hkeeps.init _ _ _
  | prepare accessor => exact hkeeps.prepare _ _ _ _ _
  | createFields => exact hkeeps.createFields _ _ _ _ _
  | createAssignment accessor => exact hkeeps.createAssignment _ _ _ _ _
  | finish => exact hkeeps.finish _ _ _

namespace Pass

theorem Makes.grows {context : Context} {bench last : Bench} {journal : Journal}
    (h : Makes context bench journal last)
    (hkeeps : ∀ running ∈ bench.generators, running.kind.generator.KeepsSources) :
    bench.session.Grows last.session := by
  induction h with
  | nil bench => exact .refl bench.session
  | select id rest ih => exact ih hkeeps
  | @call session fields before after running performed journal last step performs rest ih =>
    rw [List.forall_mem_append, List.forall_mem_cons] at hkeeps
    obtain ⟨hbefore, hrunning, hafter⟩ := hkeeps
    subst performs
    have hstep := Running.grows_perform hrunning context session fields step
    apply hstep.trans
    apply ih
    rw [List.forall_mem_append, List.forall_mem_cons, Running.kind_perform]
    exact ⟨hbefore, hrunning, hafter⟩

theorem keepsSources_fresh {tasks : List Task}
    (hkeeps : ∀ task ∈ tasks, task.kind.generator.KeepsSources) (session : Session) :
    ∀ running ∈ (Bench.fresh session tasks).generators, running.kind.generator.KeepsSources := by
  intro running hmem
  obtain ⟨task, htask, rfl⟩ := List.mem_map.1 hmem
  exact hkeeps task htask

end Pass

end BundleForge

namespace BundleForge

/-- No registered generator changes a generated source. -/
def Registry.KeepsSources (registry : Registry) : Prop :=
  registry.nested.generator.KeepsSources ∧
    ∀ kind ∈ registry.kinds.values, kind.generator.KeepsSources

theorem Registry.keepsSources_standard : Registry.standard.KeepsSources := by
  have hkinds : Registry.standard.kinds.values = [.text, .data, .image, .bundle] := rfl
  refine ⟨Generator.keepsSources_nested, ?_⟩
  rw [hkinds]
  simp only [List.forall_mem_cons, List.not_mem_nil, false_implies, implies_true, and_true]
  exact ⟨Generator.keepsSources_text, Generator.keepsSources_data, Generator.keepsSources_image,
    Generator.keepsSources_nested⟩

namespace Pass

theorem keepsSources_tasksOf {plan : Plan} (hkeeps : plan.registry.KeepsSources) (bundle : Bundle) :
    ∀ task ∈ tasksOf plan bundle, task.kind.generator.KeepsSources := by
  intro task htask
  rcases (Dispatch.grouped_ofBundle plan.registry plan.hierarchy bundle).kind_mem htask with
    hnested | hregistered
  · rw [hnested]
    exact hkeeps.1
  · exact hkeeps.2 task.kind hregistered

theorem Makes.grows_opening {plan : Plan} (hkeeps : plan.registry.KeepsSources) {bundle : Bundle}
    {context : Context} {session : Session} {journal : Journal} {last : Bench}
    (h : Makes context (.fresh session (tasksOf plan bundle)) journal last) :
    session.Grows last.session :=
  h.grows (keepsSources_fresh (keepsSources_tasksOf hkeeps bundle) session)

theorem grows_worked {σ : Type} {plan : Plan} (hkeeps : plan.registry.KeepsSources)
    (bundle : Bundle) (locale : Option String) (world : World σ) :
    FileSystem.Grows FileSystem.IsSource world.files
      (worked plan bundle locale world).session.files := by
  obtain ⟨last, hmakes, hlast⟩ :=
    (course_work plan bundle locale (opening world) (tasksOf plan bundle)).makes
  have hgrows := hmakes.grows_opening hkeeps
  rw [hlast] at hgrows
  exact hgrows

end Pass

end BundleForge
