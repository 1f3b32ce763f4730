import Mathlib.Data.List.Nodup
/-!
# Lists without repetitions

Accessors, slots, holders and owners are lists in which one key never comes twice. Picking by such a
key leaves one item; a list of the same length is given by a function on the items; and dropping
repetitions changes nothing.
-/

namespace BundleForge

variable {α : Type*} {β : Type*}

theorem filter_eq_singleton [DecidableEq β] {key : α → β} {items : List α}
    (hnodup : (items.map key).Nodup) {item : α} (hmem : item ∈ items) :
    items.filter (key · = key item) = [item] := by
  obtain ⟨before, after, rfl⟩ := List.append_of_mem hmem
  rw [List.map_append, List.map_cons, List.nodup_append, List.nodup_cons] at hnodup
  have hbefore : before.filter (key · = key item) = [] :=
    List.filter_eq_nil_iff.2 fun other hother hsame =>
      hnodup.2.2 _ (List.mem_map_of_mem hother) _ List.mem_cons_self (of_decide_eq_true hsame)
  have hafter : after.filter (key · = key item) = [] :=
    List.filter_eq_nil_iff.2 fun other hother hsame =>
      hnodup.2.1.1 (of_decide_eq_true hsame ▸ List.mem_map_of_mem hother)
  rw [List.filter_append, hbefore, List.filter_cons_of_pos (by simp), hafter, List.nil_append]

/-- The same for a list of items derived from others, picked by a key they have in common. -/
theorem filter_map_eq_singleton {γ : Type*} [DecidableEq β] {key : α → β} (form : α → γ)
    (formKey : γ → β) (hform : ∀ item, formKey (form item) = key item) {items : List α}
    (hnodup : (items.map key).Nodup) {item : α} (hmem : item ∈ items) :
    (items.map form).filter (formKey · = key item) = [form item] := by
  have hpred : ((fun other => decide (formKey other = key item)) ∘ form) =
      fun other => decide (key other = key item) := by
    funext other
    simp only [Function.comp_apply, hform]
  rw [List.filter_map, hpred, filter_eq_singleton hnodup hmem, List.map_singleton]

theorem exists_filter_zip {keys : List α} {values : List β} {p : α → Bool} {key : α}
    (hlength : values.length = keys.length) (honly : keys.filter p = [key]) :
    ∃ value, (keys.zip values).filter (fun pair => p pair.1) = [(key, value)] := by
  have hkeys : ((keys.zip values).filter (fun pair => p pair.1)).map Prod.fst = [key] := by
    have hfst : (keys.zip values).map Prod.fst = keys :=
      List.map_fst_zip (Nat.le_of_eq hlength.symm)
    have hfilter : ((keys.zip values).map Prod.fst).filter p = [key] := by rw [hfst, honly]
    rwa [List.filter_map] at hfilter
  obtain ⟨⟨key', value⟩, hpair, rfl⟩ := List.map_eq_singleton_iff.1 hkeys
  exact ⟨value, hpair⟩

theorem flatMap_eq_of_mem {items : List α} (hnodup : items.Nodup) {item : α} (hmem : item ∈ items)
    {form : α → List β} (hothers : ∀ other ∈ items, other ≠ item → form other = []) :
    items.flatMap form = form item := by
  obtain ⟨before, after, rfl⟩ := List.append_of_mem hmem
  rw [List.nodup_append, List.nodup_cons] at hnodup
  have hbefore : before.flatMap form = [] :=
    List.flatMap_eq_nil_iff.2 fun other hother =>
      hothers other (List.mem_append_left _ hother)
        (hnodup.2.2 other hother item List.mem_cons_self)
  have hafter : after.flatMap form = [] :=
    List.flatMap_eq_nil_iff.2 fun other hother =>
      hothers other (List.mem_append_right _ (List.mem_cons_of_mem _ hother))
        fun heq => hnodup.2.1.1 (heq ▸ hother)
  rw [List.flatMap_append, List.flatMap_cons, hbefore, hafter, List.nil_append, List.append_nil]

theorem getElem?_pair {first second item : α} {position : ℕ} :
    [first, second][position]? = some item ↔
      position = 0 ∧ item = first ∨ position = 1 ∧ item = second := by
  rcases position with _ | _ | position <;> simp [eq_comm]

theorem findSome?_flatMap (items : List α) (form : α → List β) {γ : Type*} (f : β → Option γ) :
    (items.flatMap form).findSome? f = items.findSome? fun item => (form item).findSome? f := by
  induction items with
  | nil => rfl
  | cons item rest ih =>
    rw [List.flatMap_cons, List.findSome?_append, List.findSome?_cons, ih]
    cases (form item).findSome? f with
    | none => rfl
    | some found => rfl

/-- A list as long as another that does not repeat is given by a function on that other. -/
theorem exists_map_eq [DecidableEq α] [Nonempty β] {items : List α} {values : List β}
    (hnodup : items.Nodup) (hlength : values.length = items.length) :
    ∃ f : α → β, values = items.map f := by
  induction items generalizing values with
  | nil =>
    obtain rfl := List.length_eq_zero_iff.1 hlength
    exact ⟨fun _ => Classical.arbitrary β, rfl⟩
  | cons item rest ih =>
    obtain ⟨value, others, rfl⟩ := List.exists_cons_of_length_eq_add_one hlength
    rw [List.nodup_cons] at hnodup
    obtain ⟨f, hf⟩ := ih hnodup.2 (Nat.succ.inj hlength)
    refine ⟨fun other => if other = item then value else f other, ?_⟩
    rw [List.map_cons, if_pos rfl, hf]
    refine congrArg _ (List.map_congr_left fun other hother => ?_)
    have hne : other ≠ item := fun heq => hnodup.1 (heq ▸ hother)
    rw [if_neg hne]

theorem nodup_eraseDups [DecidableEq α] (items : List α) : items.eraseDups.Nodup := by
  induction hlength : items.length using Nat.strongRecOn generalizing items with
  | ind length ih =>
    cases items with
    | nil => exact List.nodup_nil
    | cons item rest =>
      rw [List.eraseDups_cons, List.nodup_cons, List.mem_eraseDups]
      refine ⟨fun hmem => ?_, ih _ ?_ _ rfl⟩
      · simpa using (List.mem_filter.1 hmem).2
      · rw [← hlength]
        exact Nat.lt_succ_of_le (List.length_filter_le _ _)

theorem eraseDups_eq_self [DecidableEq α] {items : List α} (h : items.Nodup) :
    items.eraseDups = items := by
  induction items with
  | nil => rfl
  | cons item rest ih =>
    rw [List.nodup_cons] at h
    have hfilter : rest.filter (fun other => !other == item) = rest :=
      List.filter_eq_self.2 fun other hother => by
        have hne : other ≠ item := fun heq => h.1 (heq ▸ hother)
        simpa using hne
    rw [List.eraseDups_cons, hfilter, ih h.2]

theorem eraseDups_append_of_subset [DecidableEq α] {items others : List α} (h : items.Nodup)
    (hsubset : others ⊆ items) : (items ++ others).eraseDups = items := by
  have hnone : others.removeAll items = [] := by
    rw [List.removeAll, List.filter_eq_nil_iff]
    intro other hother
    simpa using hsubset hother
  rw [List.eraseDups_append, eraseDups_eq_self h, hnone, List.eraseDups_nil, List.append_nil]

theorem eraseDups_concat [DecidableEq α] (items : List α) (item : α) :
    (items ++ [item]).eraseDups =
      if item ∈ items then items.eraseDups else items.eraseDups ++ [item] := by
  rw [List.eraseDups_append]
  by_cases hmem : item ∈ items
  · have hnone : [item].removeAll items = [] := by simp [List.removeAll, hmem]
    rw [if_pos hmem, hnone, List.eraseDups_nil, List.append_nil]
  · have hsame : [item].removeAll items = [item] := by simp [List.removeAll, hmem]
    rw [if_neg hmem, hsame, List.eraseDups_cons, List.filter_nil, List.eraseDups_nil]

end BundleForge
