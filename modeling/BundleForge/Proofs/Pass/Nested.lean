import BundleForge.Proofs.Pass.Memories
import BundleForge.Proofs.Pass.Wiring
/-!
# Nested bundles in a pass

The generator for nested bundles answers with the path of an implementation and asks nobody whether there is
such an implementation. When the names of the accessors of a bundle differ, a pass that succeeds wires each
accessor this generator serves to the value that path constructs.
-/

namespace BundleForge.Pass

variable {context : Context} {id : GeneratorId} {served : List Accessor} {accessor : Accessor}

def construction (context : Context) (accessor : Accessor) : String :=
  Generator.nestedPath context accessor.kind (accessor.effectiveLocale context.locale) ++ "::new()"

def sayNested (context : Context) (_ : Unit) (accessor : Accessor) (locale : Option String) :
    Except ResourceError String :=
  .ok (Generator.nestedPath context accessor.kind locale ++ "::new()")

theorem recites_nested : Recites Generator.nested sayNested := fun _ _ _ _ _ => rfl

variable {plan : Plan} {bundle : Bundle} {locale : Option String}

theorem construction_mem_answersOf (session : Session) {tasks : List Task}
    (htask : ⟨⟨id, .nested⟩, served⟩ ∈ tasks) (hserved : accessor ∈ served) :
    ⟨⟨id, .nested⟩, accessor, .ok (construction (plan.context bundle locale) accessor)⟩ ∈
      answersOf plan bundle locale session tasks := by
  have htasks := tasks_defined plan bundle locale session tasks
  rw [← htasks] at htask
  obtain ⟨⟨kind, memory, accessors⟩, hrunning, htask⟩ := List.mem_map.1 htask
  obtain ⟨rfl, rfl⟩ := Task.mk.inj htask
  exact recited_mem_answersAll (plan.context bundle locale) recites_nested hserved hrunning _

variable {σ : Type} [Sink σ] {world : World σ}

theorem construction_of_get? {nested : Bundle} (hnested : plan.bundles.get? accessor.kind = some nested) :
    construction (plan.context bundle locale) accessor =
      nested.implementationPath (accessor.effectiveLocale locale) ++ "::new()" := by
  have hbundles : (plan.context bundle locale).bundles = plan.bundles := rfl
  rw [construction, Generator.nestedPath, hbundles, hnested]
  rfl

/-- A pass commits a module in which an accessor is wired to an expression. -/
structure Shows (plan : Plan) (bundle : Bundle) (locale : Option String) (world : World σ)
    (accessor : Accessor) (expression : String) : Prop where
  commits : Commits plan bundle locale world (moduleOf plan bundle locale world).source
  wires : ∃ holder slot, (moduleOf plan bundle locale world).Wires accessor
    (accessor.owner.getD bundle.name) holder slot expression

theorem shows_construction {type : GeneratedType} (hnames : (bundle.accessors.map (·.name)).Nodup)
    (hrun : (run plan bundle locale world).result = .generated type)
    (htask : ⟨⟨id, .nested⟩, served⟩ ∈ tasksOf plan bundle) (hserved : accessor ∈ served) :
    Shows plan bundle locale world accessor (construction (plan.context bundle locale) accessor) := by
  obtain ⟨hrefused, source, hwork, -⟩ := run_generated hrun
  obtain ⟨answer, expression, hanswered⟩ := exists_answers hrefused hwork hnames
  obtain ⟨holder, slot, hwiring⟩ := exists_wiring_of_answered hnames hrun hanswered
  have hmem : accessor ∈ bundle.accessors := (served_sublist htask).subset hserved
  -- The generator was asked for the accessor, and nobody else was.
  have hgiven : ⟨⟨id, .nested⟩, accessor, .ok (construction (plan.context bundle locale) accessor)⟩ ∈
      answersOf plan bundle locale (opening world) (tasksOf plan bundle) :=
    construction_mem_answersOf (opening world) htask hserved
  have hexpression := ((hanswered accessor hmem).expression_eq hgiven).symm
  exact ⟨hwiring.commits, holder accessor, slot accessor, hexpression ▸ hwiring.wires accessor hmem⟩

end BundleForge.Pass
