import BundleForge.Proofs.Dispatch
/-!
# Every accessor has its place

Dispatch decides about each accessor on its own: a generator serves its type or none does. So no accessor is
lost between tasks and diagnostics, and none is in both. The tasks stand in the order in which their
generators are first needed, and whatever is kept together keeps the order of declaration.
-/

namespace BundleForge.Dispatch

variable {registry : Registry} {hierarchy : Hierarchy} {bundle : Bundle} {accessor : Accessor}

/-- What is reported of an accessor that no generator serves. -/
def diagnosis? (registry : Registry) (hierarchy : Hierarchy) (bundle : Bundle) (accessor : Accessor) :
    Option Diagnostic :=
  match registry.resolve hierarchy accessor.kind with
  | .ok _ => none
  | .error error => some ⟨bundle.name, some accessor.name, .initializing, error⟩

theorem diagnostics_ofBundle (registry : Registry) (hierarchy : Hierarchy) (bundle : Bundle) :
    (ofBundle registry hierarchy bundle).diagnostics bundle =
      bundle.accessors.filterMap (diagnosis? registry hierarchy bundle) := by
  rw [diagnostics, ofBundle, refused_foldl_add, List.nil_append, List.map_filterMap]
  refine List.filterMap_congr fun accessor _ => ?_
  rw [diagnosis?]
  cases registry.resolve hierarchy accessor.kind with
  | ok kind => rfl
  | error error => rfl

theorem mem_refused_iff {error : ResourceError} :
    (accessor, error) ∈ (ofBundle registry hierarchy bundle).refused ↔
      accessor ∈ bundle.accessors ∧ registry.resolve hierarchy accessor.kind = .error error := by
  rw [ofBundle, refused_foldl_add, List.nil_append, List.mem_filterMap]
  constructor
  · rintro ⟨other, hother, hrefused⟩
    cases hresolve : registry.resolve hierarchy other.kind with
    | ok kind =>
      rw [hresolve] at hrefused
      exact absurd hrefused.symm (Option.some_ne_none _)
    | error cause =>
      rw [hresolve] at hrefused
      obtain ⟨rfl, rfl⟩ := Prod.mk.inj (Option.some.inj hrefused)
      exact ⟨hother, hresolve⟩
  · rintro ⟨hmem, hresolve⟩
    exact ⟨accessor, hmem, by rw [hresolve]⟩

theorem mem_task_iff {task : Task} (htask : task ∈ (ofBundle registry hierarchy bundle).tasks) :
    accessor ∈ task.accessors ↔
      accessor ∈ bundle.accessors ∧ idFor registry hierarchy accessor = some task.kind.id := by
  rw [(grouped_ofBundle registry hierarchy bundle).accessors_eq task htask, List.mem_filter,
    decide_eq_true_iff]

/-- An accessor that a generator serves is in one task, and not among the refused. -/
theorem served_once {kind : GeneratorKind} (hmem : accessor ∈ bundle.accessors)
    (hkind : registry.resolve hierarchy accessor.kind = .ok kind) :
    (∃ task, (ofBundle registry hierarchy bundle).tasks.filter (accessor ∈ ·.accessors) = [task] ∧
        task.kind.id = kind.id) ∧
      accessor ∉ (ofBundle registry hierarchy bundle).refused.map Prod.fst := by
  have hgrouped := grouped_ofBundle registry hierarchy bundle
  have hid : idFor registry hierarchy accessor = some kind.id := idFor_eq_some_iff.2 ⟨kind, hkind, rfl⟩
  constructor
  · obtain ⟨task, htask, heq⟩ := List.mem_map.1 (hgrouped.covers accessor hmem _ hid)
    refine ⟨task, ?_, heq⟩
    -- No other task is for the same generator.
    rw [← filter_eq_singleton hgrouped.nodup_ids htask]
    refine List.filter_congr fun other hother => ?_
    rw [decide_eq_decide, mem_task_iff hother, hid, heq, Option.some_inj, eq_comm]
    exact and_iff_right hmem
  · intro hrefused
    obtain ⟨⟨other, error⟩, hpair, rfl⟩ := List.mem_map.1 hrefused
    have herror := (mem_refused_iff.1 hpair).2
    rw [hkind] at herror
    exact absurd herror (by simp)

/-- An accessor that no generator serves is refused for its error, and in no task. -/
theorem refused_once {error : ResourceError} (hmem : accessor ∈ bundle.accessors)
    (herror : registry.resolve hierarchy accessor.kind = .error error) :
    (∀ task ∈ (ofBundle registry hierarchy bundle).tasks, accessor ∉ task.accessors) ∧
      (accessor, error) ∈ (ofBundle registry hierarchy bundle).refused := by
  refine ⟨fun task htask hserved => ?_, mem_refused_iff.2 ⟨hmem, herror⟩⟩
  obtain ⟨kind, hkind, -⟩ := idFor_eq_some_iff.1 ((mem_task_iff htask).1 hserved).2
  rw [herror] at hkind
  exact absurd hkind (by simp)

/-- Where the accessors of a bundle are after dispatch. -/
structure Places (registry : Registry) (hierarchy : Hierarchy) (bundle : Bundle) (dispatch : Dispatch) :
    Prop where
  /-- Each accessor is placed as often as it is declared. -/
  perm : (dispatch.tasks.flatMap (·.accessors) ++ dispatch.refused.map Prod.fst).Perm bundle.accessors
  served : ∀ accessor ∈ bundle.accessors, ∀ kind, registry.resolve hierarchy accessor.kind = .ok kind →
    (∃ task, dispatch.tasks.filter (accessor ∈ ·.accessors) = [task] ∧ task.kind.id = kind.id) ∧
      accessor ∉ dispatch.refused.map Prod.fst
  refused : ∀ accessor ∈ bundle.accessors, ∀ error,
    registry.resolve hierarchy accessor.kind = .error error →
      (∀ task ∈ dispatch.tasks, accessor ∉ task.accessors) ∧ (accessor, error) ∈ dispatch.refused
  /-- One task for each generator, in the order in which the generators are first needed. -/
  ids : dispatch.tasks.map (·.kind.id) =
    (bundle.accessors.filterMap (idFor registry hierarchy)).eraseDups
  distinct : (dispatch.tasks.map (·.kind.id)).Nodup
  accessors : ∀ task ∈ dispatch.tasks,
    task.accessors = bundle.accessors.filter (idFor registry hierarchy · = some task.kind.id)
  /-- One diagnostic for each accessor that is refused, in the order of declaration. -/
  diagnostics : dispatch.diagnostics bundle =
    bundle.accessors.filterMap (diagnosis? registry hierarchy bundle)

/-- Dispatch loses nothing. -/
theorem places_ofBundle (registry : Registry) (hierarchy : Hierarchy) (bundle : Bundle) :
    Places registry hierarchy bundle (ofBundle registry hierarchy bundle) where
  perm := perm_placed registry hierarchy bundle.accessors
  served _ hmem _ hkind := served_once hmem hkind
  refused _ hmem _ herror := refused_once hmem herror
  ids := ids_foldl_add registry hierarchy bundle.accessors
  distinct := (grouped_ofBundle registry hierarchy bundle).nodup_ids
  accessors := (grouped_ofBundle registry hierarchy bundle).accessors_eq
  diagnostics := diagnostics_ofBundle registry hierarchy bundle

/-- Two generators whose accessors are declared in turns, with accessors in between that nobody serves. -/
example :
    let dispatch := ofBundle .standard .builtin
      { name := ⟨"crate::Assets"⟩
        accessors :=
          [{ name := "note", kind := .textResource }, { name := "first", kind := ⟨"crate::Missing"⟩ },
            { name := "logo", kind := .imageResource }, { name := "page", kind := .textResource },
            { name := "second", kind := ⟨"crate::AlsoMissing"⟩ }] }
    dispatch.tasks.map (fun task => (task.kind.id, task.accessors.map (·.name))) =
        [(⟨"text"⟩, ["note", "page"]), (⟨"image"⟩, ["logo"])] ∧
      dispatch.refused.map (·.1.name) = ["first", "second"] := by
  decide +kernel

end BundleForge.Dispatch
