import BundleForge.Dispatch
import BundleForge.Proofs.List
import BundleForge.Proofs.OrderedMap
import Mathlib.Data.List.Induction
import Mathlib.Data.List.Nodup
/-!
# The tasks of a bundle

Dispatch goes through the accessors of a bundle one by one. `Grouped` says what the tasks are after
some of them: one task for each generator that was needed so far, holding the accessors seen so far
that this generator serves, in the order in which they were seen. One more accessor keeps that, so a
bundle of which nothing is refused has each accessor in the one task of its generator.
-/

namespace BundleForge.Dispatch

variable {registry : Registry} {hierarchy : Hierarchy}

def idFor (registry : Registry) (hierarchy : Hierarchy) (accessor : Accessor) :
    Option GeneratorId :=
  (registry.resolve hierarchy accessor.kind).toOption.map (·.id)

theorem idFor_eq_some_iff {accessor : Accessor} {id : GeneratorId} :
    idFor registry hierarchy accessor = some id ↔
      ∃ kind, registry.resolve hierarchy accessor.kind = .ok kind ∧ kind.id = id := by
  rw [idFor]
  cases registry.resolve hierarchy accessor.kind with
  | ok kind => simp [Except.toOption]
  | error error => simp [Except.toOption]

/-- A generator that serves a type is the one for nested bundles or a registered one. -/
theorem mem_of_resolve {ty : TypeName} {kind : GeneratorKind}
    (hkind : registry.resolve hierarchy ty = .ok kind) :
    kind = registry.nested ∨ kind ∈ registry.kinds.values := by
  rw [Registry.resolve] at hkind
  split at hkind
  · rename_i found hfound
    obtain rfl := Except.ok.inj hkind
    exact Or.inr (OrderedMap.mem_values_iff.2 ⟨ty, hfound⟩)
  · split at hkind
    · simp at hkind
    · split at hkind
      · exact Or.inl (Except.ok.inj hkind).symm
      · split at hkind
        · rename_i found hfound
          obtain rfl := Except.ok.inj hkind
          obtain ⟨parent, -, hparent⟩ := List.exists_of_findSome?_eq_some hfound
          exact Or.inr (OrderedMap.mem_values_iff.2 ⟨parent, hparent⟩)
        · simp at hkind

/-- The tasks for the accessors seen so far. -/
structure Grouped (registry : Registry) (hierarchy : Hierarchy) (seen : List Accessor)
    (tasks : List Task) : Prop where
  nodup_ids : (tasks.map (·.kind.id)).Nodup
  accessors_eq : ∀ task ∈ tasks,
    task.accessors = seen.filter (idFor registry hierarchy · = some task.kind.id)
  covers : ∀ accessor ∈ seen, ∀ id, idFor registry hierarchy accessor = some id →
    id ∈ tasks.map (·.kind.id)
  resolved : ∀ task ∈ tasks, ∃ accessor ∈ seen,
    registry.resolve hierarchy accessor.kind = .ok task.kind

theorem Grouped.kind_mem {seen : List Accessor} {tasks : List Task}
    (h : Grouped registry hierarchy seen tasks) {task : Task} (htask : task ∈ tasks) :
    task.kind = registry.nested ∨ task.kind ∈ registry.kinds.values := by
  obtain ⟨accessor, -, hkind⟩ := h.resolved task htask
  exact mem_of_resolve hkind

/-- An accessor joins the task of its generator and changes no other task; without such a task it
gets a new one at the end. -/
theorem mem_addTo {kind : GeneratorKind} {accessor : Accessor} {tasks : List Task} {task : Task}
    (hnodup : (tasks.map (·.kind.id)).Nodup) (h : task ∈ addTo kind accessor tasks) :
    (task ∈ tasks ∧ task.kind.id ≠ kind.id) ∨
    (∃ old ∈ tasks, old.kind.id = kind.id ∧
      task = { old with accessors := old.accessors ++ [accessor] }) ∨
    (kind.id ∉ tasks.map (·.kind.id) ∧ task = ⟨kind, [accessor]⟩) := by
  induction tasks with
  | nil => exact Or.inr (Or.inr ⟨by simp, by simpa [addTo] using h⟩)
  | cons first rest ih =>
    rw [List.map_cons, List.nodup_cons] at hnodup
    rw [addTo] at h
    split at h
    · rename_i hid
      rcases List.mem_cons.1 h with rfl | hrest
      · exact Or.inr (Or.inl ⟨first, List.mem_cons_self, hid, rfl⟩)
      · refine Or.inl ⟨List.mem_cons_of_mem _ hrest, fun heq => hnodup.1 ?_⟩
        rw [hid, ← heq]
        exact List.mem_map_of_mem hrest
    · rename_i hid
      rcases List.mem_cons.1 h with rfl | hrest
      · exact Or.inl ⟨List.mem_cons_self, hid⟩
      · rcases ih hnodup.2 hrest with ⟨hmem, hne⟩ | ⟨old, hold, hsame, heq⟩ | ⟨hnew, heq⟩
        · exact Or.inl ⟨List.mem_cons_of_mem _ hmem, hne⟩
        · exact Or.inr (Or.inl ⟨old, List.mem_cons_of_mem _ hold, hsame, heq⟩)
        · refine Or.inr (Or.inr ⟨?_, heq⟩)
          rw [List.map_cons, List.mem_cons, not_or]
          exact ⟨Ne.symm hid, hnew⟩

theorem ids_addTo (kind : GeneratorKind) (accessor : Accessor) (tasks : List Task) :
    (addTo kind accessor tasks).map (·.kind.id) =
      if kind.id ∈ tasks.map (·.kind.id) then tasks.map (·.kind.id)
      else tasks.map (·.kind.id) ++ [kind.id] := by
  induction tasks with
  | nil => simp [addTo]
  | cons first rest ih =>
    rw [addTo]
    by_cases hid : first.kind.id = kind.id
    · simp [hid]
    · rw [if_neg hid, List.map_cons, ih]
      by_cases hrest : kind.id ∈ rest.map (·.kind.id)
      · have hall : kind.id ∈ (first :: rest).map (·.kind.id) := by
          rw [List.map_cons]
          exact List.mem_cons_of_mem _ hrest
        rw [if_pos hrest, if_pos hall, List.map_cons]
      · rw [if_neg hrest, if_neg, List.map_cons, List.cons_append]
        rw [List.map_cons, List.mem_cons, not_or]
        exact ⟨Ne.symm hid, hrest⟩

theorem Grouped.nil : Grouped registry hierarchy [] [] := by
  constructor <;> simp

theorem Grouped.addTo {seen : List Accessor} {tasks : List Task} {kind : GeneratorKind}
    {accessor : Accessor} (h : Grouped registry hierarchy seen tasks)
    (hkind : registry.resolve hierarchy accessor.kind = .ok kind) :
    Grouped registry hierarchy (seen ++ [accessor]) (addTo kind accessor tasks) := by
  have hid : idFor registry hierarchy accessor = some kind.id :=
    idFor_eq_some_iff.2 ⟨kind, hkind, rfl⟩
  constructor
  case nodup_ids =>
    rw [ids_addTo]
    split
    · exact h.nodup_ids
    · rename_i hnew
      rw [List.nodup_append]
      refine ⟨h.nodup_ids, by simp, fun a ha b hb hab => hnew ?_⟩
      rw [← List.mem_singleton.1 hb, ← hab]
      exact ha
  case accessors_eq =>
    intro task htask
    rw [List.filter_append]
    rcases mem_addTo h.nodup_ids htask with ⟨hmem, hne⟩ | ⟨old, hold, hsame, rfl⟩ | ⟨hnew, rfl⟩
    · rw [h.accessors_eq task hmem]
      simp [hid, Ne.symm hne]
    · simp only [h.accessors_eq old hold]
      simp [hid, hsame]
    · have hnone : seen.filter (idFor registry hierarchy · = some kind.id) = [] :=
        List.filter_eq_nil_iff.2 fun a ha hsome => hnew (h.covers a ha _ (of_decide_eq_true hsome))
      rw [hnone]
      simp [hid]
  case covers =>
    intro a ha id hsome
    rw [ids_addTo]
    rcases List.mem_append.1 ha with hseen | hlast
    · have := h.covers a hseen id hsome
      split
      · exact this
      · exact List.mem_append_left _ this
    · rw [List.mem_singleton.1 hlast, hid] at hsome
      obtain rfl := Option.some.inj hsome
      split
      · assumption
      · exact List.mem_append_right _ List.mem_cons_self
  case resolved =>
    intro task htask
    rcases mem_addTo h.nodup_ids htask with ⟨hmem, -⟩ | ⟨old, hold, -, rfl⟩ | ⟨-, rfl⟩
    · obtain ⟨a, ha, hres⟩ := h.resolved task hmem
      exact ⟨a, List.mem_append_left _ ha, hres⟩
    · obtain ⟨a, ha, hres⟩ := h.resolved old hold
      exact ⟨a, List.mem_append_left _ ha, hres⟩
    · exact ⟨accessor, by simp, hkind⟩

theorem Grouped.refuse {seen : List Accessor} {tasks : List Task} {accessor : Accessor}
    {error : ResourceError} (h : Grouped registry hierarchy seen tasks)
    (herror : registry.resolve hierarchy accessor.kind = .error error) :
    Grouped registry hierarchy (seen ++ [accessor]) tasks := by
  have hid : idFor registry hierarchy accessor = none := by
    rw [idFor, herror]
    rfl
  constructor
  case nodup_ids => exact h.nodup_ids
  case accessors_eq =>
    intro task htask
    rw [h.accessors_eq task htask, List.filter_append]
    simp [hid]
  case covers =>
    intro a ha id hsome
    rcases List.mem_append.1 ha with hseen | hlast
    · exact h.covers a hseen id hsome
    · rw [List.mem_singleton.1 hlast, hid] at hsome
      simp at hsome
  case resolved =>
    intro task htask
    obtain ⟨a, ha, hres⟩ := h.resolved task htask
    exact ⟨a, List.mem_append_left _ ha, hres⟩

theorem Grouped.foldl_add {accessors seen : List Accessor} {dispatch : Dispatch}
    (h : Grouped registry hierarchy seen dispatch.tasks) :
    Grouped registry hierarchy (seen ++ accessors)
      (accessors.foldl (add registry hierarchy) dispatch).tasks := by
  induction accessors generalizing seen dispatch with
  | nil => simpa using h
  | cons accessor rest ih =>
    rw [List.foldl_cons, List.append_cons]
    refine ih ?_
    rw [add]
    split
    · rename_i kind hkind
      exact h.addTo hkind
    · rename_i error herror
      exact h.refuse herror

/-- Each generator that is needed has one task, with the accessors it serves. -/
theorem grouped_ofBundle (registry : Registry) (hierarchy : Hierarchy) (bundle : Bundle) :
    Grouped registry hierarchy bundle.accessors (ofBundle registry hierarchy bundle).tasks := by
  have h : Grouped registry hierarchy [] (⟨[], []⟩ : Dispatch).tasks := Grouped.nil
  have hall : Grouped registry hierarchy ([] ++ bundle.accessors)
      (bundle.accessors.foldl (add registry hierarchy) ⟨[], []⟩).tasks := h.foldl_add
  simpa [ofBundle] using hall

theorem refused_foldl_add (accessors : List Accessor) (dispatch : Dispatch) :
    (accessors.foldl (add registry hierarchy) dispatch).refused =
      dispatch.refused ++ accessors.filterMap fun accessor =>
        match registry.resolve hierarchy accessor.kind with
        | .ok _ => none
        | .error error => some (accessor, error) := by
  induction accessors generalizing dispatch with
  | nil => simp
  | cons accessor rest ih =>
    rw [List.foldl_cons, ih, add, List.filterMap_cons]
    cases registry.resolve hierarchy accessor.kind with
    | ok kind => rfl
    | error error => simp

theorem exists_kind_of_refused_eq_nil {bundle : Bundle}
    (h : (ofBundle registry hierarchy bundle).refused = []) {accessor : Accessor}
    (hmem : accessor ∈ bundle.accessors) :
    ∃ kind, registry.resolve hierarchy accessor.kind = .ok kind := by
  rw [ofBundle, refused_foldl_add, List.nil_append, List.filterMap_eq_nil_iff] at h
  have := h accessor hmem
  split at this
  · exact ⟨_, ‹_›⟩
  · simp at this

theorem refused_eq_nil_iff {bundle : Bundle} :
    (ofBundle registry hierarchy bundle).refused = [] ↔
      ∀ accessor ∈ bundle.accessors, ∃ kind, registry.resolve hierarchy accessor.kind = .ok kind := by
  constructor
  · intro h accessor hmem
    exact exists_kind_of_refused_eq_nil h hmem
  · intro h
    rw [ofBundle, refused_foldl_add, List.nil_append, List.filterMap_eq_nil_iff]
    intro accessor hmem
    obtain ⟨kind, hkind⟩ := h accessor hmem
    rw [hkind]

theorem exists_task_of_refused_eq_nil {bundle : Bundle}
    (h : (ofBundle registry hierarchy bundle).refused = []) {accessor : Accessor}
    (hmem : accessor ∈ bundle.accessors) :
    ∃ task ∈ (ofBundle registry hierarchy bundle).tasks,
      idFor registry hierarchy accessor = some task.kind.id := by
  obtain ⟨kind, hkind⟩ := exists_kind_of_refused_eq_nil h hmem
  have hid : idFor registry hierarchy accessor = some kind.id :=
    idFor_eq_some_iff.2 ⟨kind, hkind, rfl⟩
  obtain ⟨task, htask, heq⟩ :=
    List.mem_map.1 ((grouped_ofBundle registry hierarchy bundle).covers accessor hmem _ hid)
  exact ⟨task, htask, hid.trans (congrArg some heq.symm)⟩

theorem Grouped.filter_accessors {seen : List Accessor} {tasks : List Task} {accessor : Accessor}
    (h : Grouped registry hierarchy seen tasks)
    (honly : seen.filter (·.name = accessor.name) = [accessor]) {task : Task} (htask : task ∈ tasks) :
    task.accessors.filter (·.name = accessor.name) =
      if idFor registry hierarchy accessor = some task.kind.id then [accessor] else [] := by
  rw [h.accessors_eq task htask, List.filter_comm, honly, List.filter_singleton,
    Bool.cond_decide]

/-- An accessor whose name no other accessor has is served once, in the task of its generator. -/
theorem Grouped.filter_subjects {seen : List Accessor} {tasks : List Task} {accessor : Accessor}
    (h : Grouped registry hierarchy seen tasks)
    (honly : seen.filter (·.name = accessor.name) = [accessor]) {task : Task} (htask : task ∈ tasks)
    (hid : idFor registry hierarchy accessor = some task.kind.id) :
    (tasks.flatMap fun task => task.accessors.map (task.kind, ·)).filter
      (·.2.name = accessor.name) = [(task.kind, accessor)] := by
  have hserved : ∀ other ∈ tasks,
      (other.accessors.map (other.kind, ·)).filter (·.2.name = accessor.name) =
        if idFor registry hierarchy accessor = some other.kind.id then [(other.kind, accessor)]
        else [] := by
    intro other hother
    rw [List.filter_map, show ((fun a : GeneratorKind × Accessor => decide (a.2.name = accessor.name)) ∘
      fun a => (other.kind, a)) = fun a => decide (a.name = accessor.name) from rfl,
      h.filter_accessors honly hother]
    split <;> rfl
  -- The other tasks have other generators, so the accessor is in none of them.
  obtain ⟨before, after, rfl⟩ := List.append_of_mem htask
  have hnodup := h.nodup_ids
  rw [List.map_append, List.map_cons, List.nodup_append, List.nodup_cons] at hnodup
  have hother : ∀ other, other ∈ before ∨ other ∈ after →
      ¬ idFor registry hierarchy accessor = some other.kind.id := by
    rintro other (hbefore | hafter) hsame <;> rw [hid] at hsame
    · exact hnodup.2.2 other.kind.id (List.mem_map_of_mem hbefore) task.kind.id List.mem_cons_self
        (Option.some.inj hsame).symm
    · exact hnodup.2.1.1 (Option.some.inj hsame ▸ List.mem_map_of_mem hafter)
  have hnone : ∀ part : List Task, (∀ other ∈ part, other ∈ before ∨ other ∈ after) →
      (∀ other ∈ part, other ∈ before ++ task :: after) →
      part.flatMap (fun task => (task.accessors.map (task.kind, ·)).filter
        (·.2.name = accessor.name)) = [] := by
    intro part hpart hall
    refine List.flatMap_eq_nil_iff.2 fun other hmem => ?_
    rw [hserved other (hall other hmem), if_neg (hother other (hpart other hmem))]
  rw [List.filter_flatMap, List.flatMap_append, List.flatMap_cons,
    hnone before (fun _ => Or.inl) (fun _ hmem => by simp [hmem]),
    hnone after (fun _ => Or.inr) (fun _ hmem => by simp [hmem]),
    hserved task htask, if_pos hid]
  rfl

theorem diagnostics_eq_nil_iff {dispatch : Dispatch} {bundle : Bundle} :
    dispatch.diagnostics bundle = [] ↔ dispatch.refused = [] := by
  rw [diagnostics, List.map_eq_nil_iff]

theorem ids_foldl_add (registry : Registry) (hierarchy : Hierarchy) (accessors : List Accessor) :
    (accessors.foldl (add registry hierarchy) ⟨[], []⟩).tasks.map (·.kind.id) =
      (accessors.filterMap (idFor registry hierarchy)).eraseDups := by
  induction accessors using List.reverseRecOn with
  | nil => rfl
  | append_singleton accessors accessor ih =>
    rw [List.foldl_append, List.foldl_cons, List.foldl_nil, add, List.filterMap_append]
    split
    · rename_i kind hkind
      have hid : idFor registry hierarchy accessor = some kind.id :=
        idFor_eq_some_iff.2 ⟨kind, hkind, rfl⟩
      rw [ids_addTo, ih, List.filterMap_cons_some hid, List.filterMap_nil, eraseDups_concat]
      simp only [List.mem_eraseDups]
    · rename_i error herror
      have hid : idFor registry hierarchy accessor = none := by
        rw [idFor, herror]
        rfl
      rw [ih, List.filterMap_cons_none hid, List.filterMap_nil, List.append_nil]

theorem perm_addTo (kind : GeneratorKind) (accessor : Accessor) (tasks : List Task) :
    ((addTo kind accessor tasks).flatMap (·.accessors)).Perm
      (tasks.flatMap (·.accessors) ++ [accessor]) := by
  induction tasks with
  | nil => exact .refl _
  | cons first rest ih =>
    rw [addTo, List.flatMap_cons]
    split
    · rw [List.flatMap_cons, List.append_assoc, List.append_assoc]
      exact List.perm_append_comm.append_left _
    · rw [List.flatMap_cons, List.append_assoc]
      exact ih.append_left _

/-- Nothing is lost and nothing is placed twice: an accessor joins a task or is refused. -/
theorem perm_placed (registry : Registry) (hierarchy : Hierarchy) (accessors : List Accessor) :
    ((accessors.foldl (add registry hierarchy) ⟨[], []⟩).tasks.flatMap (·.accessors) ++
      (accessors.foldl (add registry hierarchy) ⟨[], []⟩).refused.map Prod.fst).Perm accessors := by
  induction accessors using List.reverseRecOn with
  | nil => exact .refl _
  | append_singleton accessors accessor ih =>
    rw [List.foldl_append, List.foldl_cons, List.foldl_nil, add]
    split
    · rename_i kind hkind
      refine ((perm_addTo kind accessor _).append_right _).trans ?_
      rw [List.append_assoc]
      refine (List.perm_append_comm.append_left _).trans ?_
      rw [← List.append_assoc]
      exact ih.append_right _
    · rw [List.map_append, List.map_singleton, ← List.append_assoc]
      exact ih.append_right _

/-- Every accessor that is not refused belongs to one task. -/
theorem perm_foldl_add {accessors : List Accessor}
    (h : ∀ accessor ∈ accessors, ∃ kind, registry.resolve hierarchy accessor.kind = .ok kind) :
    ((accessors.foldl (add registry hierarchy) ⟨[], []⟩).tasks.flatMap (·.accessors)).Perm
      accessors := by
  have hnone : (accessors.foldl (add registry hierarchy) ⟨[], []⟩).refused = [] := by
    rw [refused_foldl_add, List.nil_append, List.filterMap_eq_nil_iff]
    intro accessor hmem
    obtain ⟨kind, hkind⟩ := h accessor hmem
    rw [hkind]
  have hplaced := perm_placed registry hierarchy accessors
  rwa [hnone, List.map_nil, List.append_nil] at hplaced

end BundleForge.Dispatch
