import BundleForge.Proofs.Manifest.Problems
import Mathlib.Order.RelClasses
/-!
# What bundles inherit

Without circles the walk upwards never turns back, so what it gathers from a bundle does not depend on
how it came there, and the accessors of a bundle are given by those of the bundles it extends. By
induction upwards, a bundle has the accessors that it or a bundle above it declares, each of them once,
and what is inherited belongs to a bundle above that introduces it.
-/

namespace BundleForge.Inheritance

variable {bundles : Bundles} {through : List TypeName} {name : TypeName}

/-! ### One step of the walk -/

theorem circles_of_mem (h : name ∈ through) : circles bundles through name = [name] := by
  rw [circles, dif_pos h]

theorem circles_of_get?_eq_none (hnew : name ∉ through) (h : bundles.get? name = none) :
    circles bundles through name = [] := by
  rw [circles, dif_neg hnew]
  split
  · rfl
  · rename_i htable
    rw [h] at htable
    simp at htable

theorem circles_of_get?_eq_some (hnew : name ∉ through) {table : Bundle}
    (htable : bundles.get? name = some table) :
    circles bundles through name = table.supertypes.flatMap (circles bundles (name :: through)) := by
  rw [circles, dif_neg hnew]
  split
  · rename_i hnone
    rw [htable] at hnone
    simp at hnone
  · rename_i table' htable'
    rw [htable] at htable'
    obtain rfl := Option.some.inj htable'
    rfl

theorem accessors_of_mem (h : name ∈ through) : accessors bundles through name = [] := by
  rw [accessors, dif_pos h]

theorem accessors_of_get?_eq_none (h : bundles.get? name = none) (through : List TypeName) :
    accessors bundles through name = [] := by
  rw [accessors]
  split
  · rfl
  · split
    · rfl
    · rename_i htable
      rw [h] at htable
      simp at htable

theorem accessors_of_get?_eq_some (hnew : name ∉ through) {table : Bundle}
    (htable : bundles.get? name = some table) :
    accessors bundles through name =
      table.accessors.foldl (fun gathered own => override own gathered)
        (table.supertypes.foldl (fun gathered parent =>
          inherit parent gathered (accessors bundles (name :: through) parent)) []) := by
  rw [accessors, dif_neg hnew]
  split
  · rename_i hnone
    rw [htable] at hnone
    simp at hnone
  · rename_i table' htable'
    rw [htable] at htable'
    obtain rfl := Option.some.inj htable'
    rfl

/-! ### Walks that do not turn back -/

theorem circles_parent (h : circles bundles through name = []) {table : Bundle}
    (htable : bundles.get? name = some table) :
    name ∉ through ∧ ∀ parent ∈ table.supertypes, circles bundles (name :: through) parent = [] := by
  by_cases hmem : name ∈ through
  · rw [circles_of_mem hmem] at h
    exact absurd h (List.cons_ne_nil _ _)
  · rw [circles_of_get?_eq_some hmem htable] at h
    exact ⟨hmem, List.flatMap_eq_nil_iff.1 h⟩

private theorem foldl_inherit_congr {parents : List TypeName} {f g : TypeName → List Accessor}
    (h : ∀ parent ∈ parents, f parent = g parent) (gathered : List Accessor) :
    parents.foldl (fun gathered parent => inherit parent gathered (f parent)) gathered =
      parents.foldl (fun gathered parent => inherit parent gathered (g parent)) gathered := by
  induction parents generalizing gathered with
  | nil => rfl
  | cons parent rest ih =>
    rw [List.foldl_cons, List.foldl_cons, h parent List.mem_cons_self,
      ih fun other hother => h other (List.mem_cons_of_mem _ hother)]

theorem accessors_eq_of_circles {through' : List TypeName} (h : circles bundles through name = [])
    (h' : circles bundles through' name = []) :
    accessors bundles through name = accessors bundles through' name := by
  induction through, name using circles.induct bundles generalizing through' with
  | case1 through name hmem =>
    rw [circles_of_mem hmem] at h
    exact absurd h (List.cons_ne_nil _ _)
  | case2 through name hnew hnone =>
    rw [accessors_of_get?_eq_none hnone, accessors_of_get?_eq_none hnone]
  | case3 through name hnew table htable ih =>
    obtain ⟨-, hparents⟩ := circles_parent h htable
    obtain ⟨hnew', hparents'⟩ := circles_parent h' htable
    rw [accessors_of_get?_eq_some hnew htable, accessors_of_get?_eq_some hnew' htable,
      foldl_inherit_congr fun parent hparent =>
        ih parent (hparents parent hparent) (hparents' parent hparent)]

/-- Where no walk turns back one cannot go upwards for ever. -/
theorem acc_of_circles (h : circles bundles through name = []) :
    Acc (fun parent bundle => ∃ table, bundles.get? bundle = some table ∧
      parent ∈ table.supertypes) name := by
  induction through, name using circles.induct bundles with
  | case1 through name hmem =>
    rw [circles_of_mem hmem] at h
    exact absurd h (List.cons_ne_nil _ _)
  | case2 through name hnew hnone =>
    refine ⟨_, ?_⟩
    rintro parent ⟨table, htable, -⟩
    rw [hnone] at htable
    simp at htable
  | case3 through name hnew table htable ih =>
    refine ⟨_, ?_⟩
    rintro parent ⟨table', htable', hparent⟩
    rw [htable] at htable'
    obtain rfl := Option.some.inj htable'
    exact ih parent ((circles_parent h htable).2 parent hparent)

/-! ### What is passed on -/

theorem mem_names_inherit {parent : TypeName} {gathered passedOn : List Accessor} {n : String} :
    n ∈ (inherit parent gathered passedOn).map (·.name) ↔
      n ∈ gathered.map (·.name) ∨ n ∈ passedOn.map (·.name) := by
  induction passedOn generalizing gathered with
  | nil => simp [inherit]
  | cons accessor rest ih =>
    rw [inherit, List.foldl_cons, ← inherit, ih, List.map_cons, List.mem_cons]
    split
    · rename_i hany
      have hmem : accessor.name ∈ gathered.map (·.name) := by
        obtain ⟨other, hother, hsame⟩ := List.any_eq_true.1 hany
        exact List.mem_map.2 ⟨other, hother, of_decide_eq_true hsame⟩
      exact ⟨fun h => h.imp_right Or.inr, fun h => h.elim Or.inl fun h =>
        h.elim (fun heq => Or.inl (heq ▸ hmem)) Or.inr⟩
    · rw [List.map_append, List.mem_append, List.map_singleton, List.mem_singleton, or_assoc]

theorem nodup_names_inherit {parent : TypeName} {gathered : List Accessor}
    (h : (gathered.map (·.name)).Nodup) (passedOn : List Accessor) :
    ((inherit parent gathered passedOn).map (·.name)).Nodup := by
  induction passedOn generalizing gathered with
  | nil => exact h
  | cons accessor rest ih =>
    rw [inherit, List.foldl_cons, ← inherit]
    split
    · exact ih h
    · rename_i hany
      refine ih ?_
      rw [List.map_append, List.map_singleton, List.nodup_append]
      refine ⟨h, List.nodup_singleton _, fun a ha b hb hab => hany ?_⟩
      rw [List.mem_singleton.1 hb] at hab
      obtain ⟨other, hother, rfl⟩ := List.mem_map.1 ha
      exact List.any_eq_true.2 ⟨other, hother, decide_eq_true hab⟩

theorem mem_inherit {parent : TypeName} {gathered passedOn : List Accessor} {accessor : Accessor}
    (h : accessor ∈ inherit parent gathered passedOn) :
    accessor ∈ gathered ∨ ∃ passed ∈ passedOn,
      accessor = { passed with owner := some (passed.owner.getD parent) } := by
  induction passedOn generalizing gathered with
  | nil => exact Or.inl h
  | cons first rest ih =>
    rw [inherit, List.foldl_cons, ← inherit] at h
    rcases ih h with hgathered | ⟨passed, hpassed, heq⟩
    · split at hgathered
      · exact Or.inl hgathered
      · rcases List.mem_append.1 hgathered with hold | hnew
        · exact Or.inl hold
        · exact Or.inr ⟨first, List.mem_cons_self, List.mem_singleton.1 hnew⟩
    · exact Or.inr ⟨passed, List.mem_cons_of_mem _ hpassed, heq⟩

theorem names_override (own : Accessor) (gathered : List Accessor) :
    (override own gathered).map (·.name) =
      if own.name ∈ gathered.map (·.name) then gathered.map (·.name)
      else gathered.map (·.name) ++ [own.name] := by
  induction gathered with
  | nil => rfl
  | cons inherited rest ih =>
    rw [override]
    by_cases hname : inherited.name = own.name
    · simp [hname]
    · rw [if_neg hname, List.map_cons, ih, List.map_cons]
      by_cases hrest : own.name ∈ rest.map (·.name)
      · rw [if_pos hrest, if_pos (List.mem_cons_of_mem _ hrest)]
      · rw [if_neg hrest, if_neg, List.cons_append]
        rw [List.mem_cons, not_or]
        exact ⟨Ne.symm hname, hrest⟩

theorem mem_override {own accessor : Accessor} {gathered : List Accessor}
    (h : accessor ∈ override own gathered) :
    accessor ∈ gathered ∨ (accessor = own ∧ own.name ∉ gathered.map (·.name)) ∨
      ∃ inherited ∈ gathered, inherited.name = own.name ∧
        accessor = { own with owner := inherited.owner } := by
  induction gathered with
  | nil => exact Or.inr (Or.inl ⟨List.mem_singleton.1 h, List.not_mem_nil⟩)
  | cons inherited rest ih =>
    rw [override] at h
    split at h
    · rename_i hname
      rcases List.mem_cons.1 h with heq | hrest
      · exact Or.inr (Or.inr ⟨inherited, List.mem_cons_self, hname, heq⟩)
      · exact Or.inl (List.mem_cons_of_mem _ hrest)
    · rename_i hname
      rcases List.mem_cons.1 h with rfl | hrest
      · exact Or.inl List.mem_cons_self
      · rcases ih hrest with hmem | ⟨heq, hnew⟩ | ⟨other, hother, hsame, heq⟩
        · exact Or.inl (List.mem_cons_of_mem _ hmem)
        · refine Or.inr (Or.inl ⟨heq, ?_⟩)
          rw [List.map_cons, List.mem_cons, not_or]
          exact ⟨Ne.symm hname, hnew⟩
        · exact Or.inr (Or.inr ⟨other, List.mem_cons_of_mem _ hother, hsame, heq⟩)

theorem mem_names_override {own : Accessor} {gathered : List Accessor} {n : String} :
    n ∈ (override own gathered).map (·.name) ↔ n ∈ gathered.map (·.name) ∨ n = own.name := by
  rw [names_override]
  split
  · rename_i hmem
    exact ⟨Or.inl, fun h => h.elim id fun heq => heq ▸ hmem⟩
  · rw [List.mem_append, List.mem_singleton]

theorem nodup_names_override {gathered : List Accessor} (h : (gathered.map (·.name)).Nodup)
    (own : Accessor) : ((override own gathered).map (·.name)).Nodup := by
  rw [names_override]
  split
  · exact h
  · rename_i hnew
    rw [List.nodup_append]
    refine ⟨h, List.nodup_singleton _, fun a ha b hb hab => hnew ?_⟩
    rwa [← List.mem_singleton.1 hb, ← hab]

/-! ### All parents, and all own accessors -/

section Folds

variable {parents : List TypeName} {passedOn : TypeName → List Accessor} {gathered own : List Accessor}

private theorem mem_names_foldl_inherit {n : String} :
    n ∈ (parents.foldl (fun gathered parent => inherit parent gathered (passedOn parent))
        gathered).map (·.name) ↔
      n ∈ gathered.map (·.name) ∨ ∃ parent ∈ parents, n ∈ (passedOn parent).map (·.name) := by
  induction parents generalizing gathered with
  | nil => simp
  | cons parent rest ih =>
    rw [List.foldl_cons, ih, mem_names_inherit, or_assoc, List.exists_mem_cons_iff]

private theorem nodup_names_foldl_inherit (h : (gathered.map (·.name)).Nodup) :
    ((parents.foldl (fun gathered parent => inherit parent gathered (passedOn parent))
      gathered).map (·.name)).Nodup := by
  induction parents generalizing gathered with
  | nil => exact h
  | cons parent rest ih => exact ih (nodup_names_inherit h _)

private theorem mem_foldl_inherit {accessor : Accessor}
    (h : accessor ∈ parents.foldl (fun gathered parent => inherit parent gathered (passedOn parent))
      gathered) :
    accessor ∈ gathered ∨ ∃ parent ∈ parents, ∃ passed ∈ passedOn parent,
      accessor = { passed with owner := some (passed.owner.getD parent) } := by
  induction parents generalizing gathered with
  | nil => exact Or.inl h
  | cons parent rest ih =>
    rcases ih h with hmem | ⟨other, hother, hpassed⟩
    · rcases mem_inherit hmem with hold | hpassed
      · exact Or.inl hold
      · exact Or.inr ⟨parent, List.mem_cons_self, hpassed⟩
    · exact Or.inr ⟨other, List.mem_cons_of_mem _ hother, hpassed⟩

private theorem mem_names_foldl_override {n : String} :
    n ∈ (own.foldl (fun gathered own => override own gathered) gathered).map (·.name) ↔
      n ∈ gathered.map (·.name) ∨ n ∈ own.map (·.name) := by
  induction own generalizing gathered with
  | nil => simp
  | cons first rest ih =>
    rw [List.foldl_cons, ih, mem_names_override, or_assoc, List.map_cons, List.mem_cons]

private theorem nodup_names_foldl_override (h : (gathered.map (·.name)).Nodup) :
    ((own.foldl (fun gathered own => override own gathered) gathered).map (·.name)).Nodup := by
  induction own generalizing gathered with
  | nil => exact h
  | cons first rest ih => exact ih (nodup_names_override h first)

/-- An accessor that is declared has the owner of what it overrides, and none if it is new. -/
private theorem owner_of_mem_foldl_override (hnone : ∀ accessor ∈ own, accessor.owner = none)
    {accessor : Accessor}
    (h : accessor ∈ own.foldl (fun gathered own => override own gathered) gathered) :
    (∃ inherited ∈ gathered, inherited.name = accessor.name ∧ accessor.owner = inherited.owner) ∨
    (accessor.name ∉ gathered.map (·.name) ∧ accessor.name ∈ own.map (·.name) ∧
      accessor.owner = none) := by
  induction own generalizing gathered with
  | nil => exact Or.inl ⟨accessor, h, rfl, rfl⟩
  | cons first rest ih =>
    rw [List.forall_mem_cons] at hnone
    rw [List.map_cons, List.mem_cons]
    rcases ih hnone.2 h with ⟨inherited, hmem, hname, howner⟩ | ⟨hnew, hmem, howner⟩
    · rcases mem_override hmem with hold | ⟨rfl, hfirst⟩ | ⟨replaced, hreplaced, hsame, rfl⟩
      · exact Or.inl ⟨inherited, hold, hname, howner⟩
      · rw [hname] at hfirst
        exact Or.inr ⟨hfirst, Or.inl hname.symm, howner.trans hnone.1⟩
      · exact Or.inl ⟨replaced, hreplaced, hsame.trans hname, howner⟩
    · rw [mem_names_override, not_or] at hnew
      exact Or.inr ⟨hnew.1, Or.inr hmem, howner⟩

end Folds

end BundleForge.Inheritance

namespace BundleForge.Declarations

open Inheritance

variable {declarations : Declarations}

def accessorsOf (declarations : Declarations) (bundle : TypeName) : List Accessor :=
  accessors declarations.firstTables [] bundle

def inherited (declarations : Declarations) (table : Bundle) : List Accessor :=
  table.supertypes.foldl (fun gathered parent =>
    inherit parent gathered (declarations.accessorsOf parent)) []

theorem nodup_names_accessorsOf (declarations : Declarations) (bundle : TypeName) :
    ((declarations.accessorsOf bundle).map (·.name)).Nodup := by
  rw [accessorsOf]
  cases htable : declarations.firstTables.get? bundle with
  | none =>
    rw [accessors_of_get?_eq_none htable]
    exact List.nodup_nil
  | some table =>
    rw [accessors_of_get?_eq_some List.not_mem_nil htable]
    exact nodup_names_foldl_override (nodup_names_foldl_inherit List.nodup_nil)

theorem declared_of_mem_accessorsOf {bundle : TypeName} {name : String}
    (h : name ∈ (declarations.accessorsOf bundle).map (·.name)) :
    bundle ∈ declarations.bundles.map (·.name) := by
  rw [← mem_keys_firstTables]
  by_contra hnot
  rw [accessorsOf, accessors_of_get?_eq_none (OrderedMap.get?_eq_none_iff.2 hnot)] at h
  exact absurd h List.not_mem_nil

section Accepted

variable (hproblems : declarations.problems = [])
include hproblems

theorem get?_of_extends {bundle parent : TypeName} (h : declarations.Extends bundle parent) :
    ∃ table, declarations.firstTables.get? bundle = some table ∧ parent ∈ table.supertypes := by
  obtain ⟨table, hmem, rfl, hparent, -⟩ := h
  exact ⟨table, get?_firstTables_of_mem hproblems hmem, hparent⟩

theorem extends_iff {bundle parent : TypeName} {table : Bundle}
    (htable : declarations.firstTables.get? bundle = some table) :
    declarations.Extends bundle parent ↔
      parent ∈ table.supertypes ∧ parent ∈ declarations.bundles.map (·.name) := by
  constructor
  · intro h
    obtain ⟨table', htable', hparent⟩ := get?_of_extends hproblems h
    rw [htable] at htable'
    obtain rfl := Option.some.inj htable'
    exact ⟨hparent, h.choose_spec.2.2.2⟩
  · rintro ⟨hparent, hdeclared⟩
    obtain ⟨hmem, hname⟩ := mem_of_get?_firstTables htable
    exact ⟨table, hmem, hname, hparent, hdeclared⟩

theorem declares_iff {bundle : TypeName} {table : Bundle} {name : String}
    (htable : declarations.firstTables.get? bundle = some table) :
    declarations.Declares bundle name ↔ name ∈ table.accessors.map (·.name) := by
  constructor
  · rintro ⟨table', hmem, rfl, hname⟩
    rw [get?_firstTables_of_mem hproblems hmem] at htable
    rwa [← Option.some.inj htable]
  · intro hname
    obtain ⟨hmem, heq⟩ := mem_of_get?_firstTables htable
    exact ⟨table, hmem, heq, hname⟩

/-- One cannot go upwards for ever. -/
theorem wellFounded_extends :
    WellFounded (fun parent bundle => declarations.Extends bundle parent) := by
  refine ⟨fun bundle => ?_⟩
  by_cases hdeclared : bundle ∈ declarations.firstTables.keys
  · refine Subrelation.accessible (fun h => get?_of_extends hproblems h)
      (acc_of_circles (circles_eq_nil hproblems hdeclared))
  · refine ⟨_, fun parent h => absurd ?_ hdeclared⟩
    obtain ⟨table, htable, -⟩ := get?_of_extends hproblems h
    exact mem_keys_of_get? htable

theorem not_above_self (bundle : TypeName) : ¬ declarations.Above bundle bundle := by
  intro h
  have hcycle := Relation.transGen_swap.2 h
  exact (wellFounded_extends hproblems).transGen.asymmetric _ _ hcycle hcycle

/-- The accessors of a bundle are given by those of the bundles it extends. -/
theorem accessorsOf_eq {bundle : TypeName} {table : Bundle}
    (htable : declarations.firstTables.get? bundle = some table) :
    declarations.accessorsOf bundle =
      table.accessors.foldl (fun gathered own => override own gathered)
        (declarations.inherited table) := by
  have hcircles := circles_eq_nil hproblems (mem_keys_of_get? htable)
  obtain ⟨-, hparents⟩ := circles_parent hcircles htable
  rw [accessorsOf, accessors_of_get?_eq_some List.not_mem_nil htable, inherited]
  rw [foldl_inherit_congr (g := declarations.accessorsOf) fun parent hparent => ?_]
  cases hget : declarations.firstTables.get? parent with
  | none => rw [accessorsOf, accessors_of_get?_eq_none hget, accessors_of_get?_eq_none hget]
  | some above =>
    exact accessors_eq_of_circles (hparents parent hparent)
      (circles_eq_nil hproblems (mem_keys_of_get? hget))

private theorem mem_names_inherited_of {bundle : TypeName} {table : Bundle}
    (htable : declarations.firstTables.get? bundle = some table) {name : String}
    (h : ∀ parent, declarations.Extends bundle parent →
      (name ∈ (declarations.accessorsOf parent).map (·.name) ↔
        declarations.Declares parent name ∨
          ∃ above, declarations.Above parent above ∧ declarations.Declares above name)) :
    name ∈ (declarations.inherited table).map (·.name) ↔
      ∃ above, declarations.Above bundle above ∧ declarations.Declares above name := by
  rw [inherited, mem_names_foldl_inherit]
  constructor
  · rintro (hnone | ⟨parent, hparent, hname⟩)
    · exact absurd hnone List.not_mem_nil
    · have hextends : declarations.Extends bundle parent :=
        (extends_iff hproblems htable).2 ⟨hparent, declared_of_mem_accessorsOf hname⟩
      rcases (h parent hextends).1 hname with hdeclares | ⟨above, habove, hdeclares⟩
      · exact ⟨parent, .single hextends, hdeclares⟩
      · exact ⟨above, .head hextends habove, hdeclares⟩
  · rintro ⟨above, habove, hdeclares⟩
    obtain ⟨parent, hextends, hrest⟩ := Relation.TransGen.head'_iff.1 habove
    refine Or.inr ⟨parent, ((extends_iff hproblems htable).1 hextends).1, (h parent hextends).2 ?_⟩
    rcases Relation.reflTransGen_iff_eq_or_transGen.1 hrest with rfl | hhigher
    · exact Or.inl hdeclares
    · exact Or.inr ⟨above, hhigher, hdeclares⟩

/-- A bundle has the accessors that it or a bundle above it declares. -/
theorem mem_names_accessorsOf {bundle : TypeName} {name : String} :
    name ∈ (declarations.accessorsOf bundle).map (·.name) ↔
      declarations.Declares bundle name ∨
        ∃ above, declarations.Above bundle above ∧ declarations.Declares above name := by
  -- Upwards there is no circle, so what holds above a bundle may be used for it.
  induction bundle using (wellFounded_extends hproblems).induction with
  | h bundle ih =>
    cases htable : declarations.firstTables.get? bundle with
    | none =>
      have hnot : bundle ∉ declarations.bundles.map (·.name) := fun hmem =>
        OrderedMap.get?_eq_none_iff.1 htable (mem_keys_firstTables.2 hmem)
      rw [accessorsOf, accessors_of_get?_eq_none htable]
      constructor
      · exact fun h => absurd h List.not_mem_nil
      · rintro (⟨table, hmem, rfl, -⟩ | ⟨above, habove, -⟩)
        · exact absurd (List.mem_map_of_mem hmem) hnot
        · obtain ⟨parent, ⟨table, hmem, rfl, -⟩, -⟩ := Relation.TransGen.head'_iff.1 habove
          exact absurd (List.mem_map_of_mem hmem) hnot
    | some table =>
      rw [accessorsOf_eq hproblems htable, mem_names_foldl_override,
        mem_names_inherited_of hproblems htable ih, declares_iff hproblems htable, or_comm]

theorem mem_names_inherited {bundle : TypeName} {table : Bundle}
    (htable : declarations.firstTables.get? bundle = some table) {name : String} :
    name ∈ (declarations.inherited table).map (·.name) ↔
      ∃ above, declarations.Above bundle above ∧ declarations.Declares above name :=
  mem_names_inherited_of hproblems htable fun _ _ => mem_names_accessorsOf hproblems

/-- An accessor without an owner is introduced by the bundle itself, any other by its owner, which is
above the bundle. -/
def Attributed (declarations : Declarations) (bundle : TypeName) (accessor : Accessor) : Prop :=
  (accessor.owner = none ∧ declarations.Introduces bundle accessor.name) ∨
    ∃ owner, accessor.owner = some owner ∧ declarations.Above bundle owner ∧
      declarations.Introduces owner accessor.name

theorem attributed_of_mem_accessorsOf
    (hnone : ∀ table ∈ declarations.bundles, ∀ accessor ∈ table.accessors, accessor.owner = none)
    {bundle : TypeName} {accessor : Accessor} (h : accessor ∈ declarations.accessorsOf bundle) :
    declarations.Attributed bundle accessor := by
  induction bundle using (wellFounded_extends hproblems).induction generalizing accessor with
  | h bundle ih =>
    cases htable : declarations.firstTables.get? bundle with
    | none =>
      rw [accessorsOf, accessors_of_get?_eq_none htable] at h
      exact absurd h List.not_mem_nil
    | some table =>
      obtain ⟨hmem, hname⟩ := mem_of_get?_firstTables htable
      rw [accessorsOf_eq hproblems htable] at h
      rcases owner_of_mem_foldl_override (hnone table hmem) h with
        ⟨inherited, hinherited, hsame, howner⟩ | ⟨hnew, hown, howner⟩
      · rcases mem_foldl_inherit hinherited with hnil | ⟨parent, hparent, passed, hpassed, rfl⟩
        · exact absurd hnil List.not_mem_nil
        · have hdeclared : parent ∈ declarations.bundles.map (·.name) :=
            declared_of_mem_accessorsOf (List.mem_map_of_mem (f := (·.name)) hpassed)
          have hextends := (extends_iff hproblems htable).2 ⟨hparent, hdeclared⟩
          refine Or.inr ⟨passed.owner.getD parent, howner, ?_⟩
          rw [← hsame]
          rcases ih parent hextends hpassed with ⟨hfree, hintroduces⟩ | ⟨owner, hsome, habove, hintroduces⟩
          · rw [hfree]
            exact ⟨.single hextends, hintroduces⟩
          · rw [hsome]
            exact ⟨.head hextends habove, hintroduces⟩
      · refine Or.inl ⟨howner, (declares_iff hproblems htable).2 hown, fun above habove hdeclares => ?_⟩
        exact hnew ((mem_names_inherited hproblems htable).2 ⟨above, habove, hdeclares⟩)

end Accepted

end BundleForge.Declarations
