import BundleForge.Manifest.Problem
import BundleForge.Proofs.OrderedMap
import Mathlib.Logic.Relation
/-!
# The tables of a manifest

What a manifest says about bundles is said of its tables: which bundle declares which accessors, and
which declared bundles it extends. The first table that has the name of a bundle is the one that counts.
-/

namespace BundleForge.Declarations

variable {declarations : Declarations}

/-- The table of a bundle has an accessor of some name. -/
def Declares (declarations : Declarations) (bundle : TypeName) (name : String) : Prop :=
  ∃ table ∈ declarations.bundles, table.name = bundle ∧ name ∈ table.accessors.map (·.name)

/-- The table of a bundle names a declared bundle among its supertypes. -/
def Extends (declarations : Declarations) (bundle parent : TypeName) : Prop :=
  ∃ table ∈ declarations.bundles, table.name = bundle ∧ parent ∈ table.supertypes ∧
    parent ∈ declarations.bundles.map (·.name)

/-- A bundle has another one above it, through declared bundles only. -/
def Above (declarations : Declarations) : TypeName → TypeName → Prop :=
  Relation.TransGen declarations.Extends

/-- A bundle declares an accessor that it does not inherit. -/
def Introduces (declarations : Declarations) (bundle : TypeName) (name : String) : Prop :=
  declarations.Declares bundle name ∧
    ∀ above, declarations.Above bundle above → ¬ declarations.Declares above name

/-! ### First tables -/

private theorem get?_foldl_tables (bundles : List Bundle) (tables : Bundles) (name : TypeName) :
    (bundles.foldl (fun tables bundle =>
      if tables.contains bundle.name then tables else tables.insert bundle.name bundle)
        tables).get? name =
      (tables.get? name).or (bundles.find? (·.name = name)) := by
  induction bundles generalizing tables with
  | nil => simp
  | cons bundle rest ih =>
    rw [List.foldl_cons, ih]
    by_cases hname : bundle.name = name
    · rw [List.find?_cons_of_pos (by simpa using hname)]
      split
      · rename_i hcontains
        obtain ⟨table, htable⟩ := Option.isSome_iff_exists.1 hcontains
        rw [← hname, htable]
        rfl
      · rename_i hnone
        rw [OrderedMap.contains, Bool.not_eq_true, Option.isSome_eq_false_iff,
          Option.isNone_iff_eq_none] at hnone
        rw [← hname, hnone, OrderedMap.get?_insert_self]
        rfl
    · rw [List.find?_cons_of_neg (by simpa using hname)]
      split
      · rfl
      · rw [OrderedMap.get?_insert_of_ne _ _ (Ne.symm hname)]

theorem get?_firstTables (declarations : Declarations) (name : TypeName) :
    declarations.firstTables.get? name = declarations.bundles.find? (·.name = name) := by
  rw [firstTables, get?_foldl_tables, OrderedMap.get?_empty, Option.none_or]

theorem mem_of_get?_firstTables {name : TypeName} {table : Bundle}
    (h : declarations.firstTables.get? name = some table) :
    table ∈ declarations.bundles ∧ table.name = name := by
  rw [get?_firstTables] at h
  have hname := List.find?_some h
  exact ⟨List.mem_of_find?_eq_some h, of_decide_eq_true hname⟩

theorem names_firstTables (declarations : Declarations) :
    declarations.firstTables.values.map (·.name) = declarations.firstTables.keys := by
  rw [OrderedMap.values, OrderedMap.keys, List.map_map]
  refine List.map_congr_left fun entry hentry => ?_
  exact (mem_of_get?_firstTables (OrderedMap.get?_eq_some_iff.2 hentry)).2

theorem mem_keys_firstTables {name : TypeName} :
    name ∈ declarations.firstTables.keys ↔ name ∈ declarations.bundles.map (·.name) := by
  rw [OrderedMap.mem_keys_iff, List.mem_map]
  constructor
  · rintro ⟨table, h⟩
    exact ⟨table, mem_of_get?_firstTables h⟩
  · rintro ⟨table, hmem, hname⟩
    rw [get?_firstTables, ← Option.isSome_iff_exists, List.find?_isSome]
    exact ⟨table, hmem, decide_eq_true hname⟩

end BundleForge.Declarations
