import BundleForge.Manifest
import BundleForge.Pass
import BundleForge.Proofs.Hierarchy
import BundleForge.Proofs.Manifest.Decoded
import BundleForge.Proofs.Manifest.Inheritance
/-!
# Accepted manifests

An accepted manifest has one bundle for each table, with the accessors that inheritance gives it, and a
hierarchy in which every bundle stands below all that its table names. What is above a bundle through
declared bundles is therefore also among its parents in the hierarchy.
-/

namespace BundleForge.Manifest

open Declarations (accessorsOf)

variable {declarations : Declarations} {manifest : Manifest}

theorem ofDeclarations_eq_ok (h : ofDeclarations declarations = .ok manifest) :
    declarations.problems = [] ∧
    manifest.hierarchy = declarations.firstTables.values.foldl
      (fun hierarchy bundle => hierarchy.declare bundle.name (supertypes bundle) none)
      declarations.typeHierarchy ∧
    manifest.bundles = declarations.firstTables.mapValues fun name bundle =>
      { bundle with accessors := declarations.accessorsOf name } := by
  rw [ofDeclarations] at h
  split at h
  · simp at h
  · rename_i hproblems
    obtain rfl := Except.ok.inj h
    exact ⟨hproblems, rfl, rfl⟩

theorem ofDeclarations_of_parse {text : String} (hread : Toml.read Declarations.decode text = .ok declarations)
    (hparse : parse text = .ok manifest) : ofDeclarations declarations = .ok manifest := by
  rw [parse, hread] at hparse
  cases h : ofDeclarations declarations with
  | error found => simp [h, Except.mapError] at hparse
  | ok accepted => simpa [h, Except.mapError] using hparse

theorem parse_of_isSome {text : String} (hread : Toml.read Declarations.decode text = .ok declarations)
    (hsome : (ofDeclarations declarations).toOption.isSome = true) (other : Manifest) :
    parse text = .ok ((ofDeclarations declarations).toOption.getD other) := by
  rw [parse, hread]
  cases haccepted : ofDeclarations declarations with
  | error found =>
    rw [haccepted] at hsome
    exact absurd hsome Bool.false_ne_true
  | ok manifest => simp [Except.mapError, Except.toOption, haccepted]

theorem exists_declarations_of_parse {text : String} (hparse : parse text = .ok manifest) :
    ∃ declarations, ofDeclarations declarations = .ok manifest := by
  cases hread : Toml.read Declarations.decode text with
  | error cause =>
    rw [parse, hread] at hparse
    simp at hparse
  | ok declarations => exact ⟨declarations, ofDeclarations_of_parse hread hparse⟩

section

variable (h : ofDeclarations declarations = .ok manifest)
include h

theorem get?_bundles (name : TypeName) :
    manifest.bundles.get? name = (declarations.firstTables.get? name).map fun table =>
      { table with accessors := declarations.accessorsOf name } := by
  rw [(ofDeclarations_eq_ok h).2.2, OrderedMap.get?_mapValues]

/-- A bundle of a manifest is the table of its name with all its accessors. -/
theorem exists_table_of_mem {bundle : Bundle} (hmem : bundle ∈ manifest.bundles.values) :
    ∃ table, declarations.firstTables.get? bundle.name = some table ∧
      bundle = { table with accessors := declarations.accessorsOf bundle.name } := by
  obtain ⟨name, hname⟩ := OrderedMap.mem_values_iff.1 hmem
  rw [get?_bundles h] at hname
  obtain ⟨table, htable, rfl⟩ := Option.map_eq_some_iff.1 hname
  obtain ⟨-, rfl⟩ := Declarations.mem_of_get?_firstTables htable
  exact ⟨table, htable, rfl⟩

/-- No two bundles of a manifest have one name. -/
theorem nodup_bundles : (manifest.bundles.values.map (·.name)).Nodup := by
  have hnames : manifest.bundles.values.map (·.name) = declarations.firstTables.keys := by
    rw [← Declarations.names_firstTables, (ofDeclarations_eq_ok h).2.2, OrderedMap.values,
      OrderedMap.mapValues, OrderedMap.values, List.map_map, List.map_map, List.map_map]
    rfl
  rw [hnames]
  exact OrderedMap.keys_nodup _

theorem contains_bundles {name : TypeName} :
    manifest.bundles.contains name = true ↔ name ∈ declarations.bundles.map (·.name) := by
  rw [← Declarations.mem_keys_firstTables, OrderedMap.contains_iff, (ofDeclarations_eq_ok h).2.2,
    OrderedMap.keys_mapValues]

end

/-! ### The hierarchy of a manifest -/

private theorem supertypes?_foldl_declare {bundles : List Bundle} {name : TypeName}
    (hname : ∀ bundle ∈ bundles, bundle.name ≠ name) (hierarchy : Hierarchy) :
    (bundles.foldl (fun hierarchy bundle =>
      hierarchy.declare bundle.name (supertypes bundle) none) hierarchy).supertypes? name =
      hierarchy.supertypes? name := by
  induction bundles generalizing hierarchy with
  | nil => rfl
  | cons bundle rest ih =>
    rw [List.foldl_cons, ih fun other hother => hname other (List.mem_cons_of_mem _ hother),
      Hierarchy.supertypes?, Hierarchy.declare, OrderedMap.get?_insert_of_ne _ _
        (hname bundle List.mem_cons_self).symm]
    rfl

private theorem supertypes?_foldl_declare_of_mem {bundles : List Bundle}
    (hnodup : (bundles.map (·.name)).Nodup) {bundle : Bundle} (hmem : bundle ∈ bundles)
    (hierarchy : Hierarchy) :
    (bundles.foldl (fun hierarchy bundle =>
      hierarchy.declare bundle.name (supertypes bundle) none) hierarchy).supertypes? bundle.name =
      some (supertypes bundle) := by
  obtain ⟨before, after, rfl⟩ := List.append_of_mem hmem
  rw [List.map_append, List.map_cons, List.nodup_append, List.nodup_cons] at hnodup
  have hafter : ∀ other ∈ after, other.name ≠ bundle.name := fun other hother hsame =>
    hnodup.2.1.1 (hsame ▸ List.mem_map_of_mem (f := (·.name)) hother)
  rw [List.foldl_append, List.foldl_cons, supertypes?_foldl_declare hafter, Hierarchy.supertypes?,
    Hierarchy.declare, OrderedMap.get?_insert_self]
  rfl

section

variable (h : ofDeclarations declarations = .ok manifest)
include h

theorem supertypes?_hierarchy {name : TypeName} {table : Bundle}
    (htable : declarations.firstTables.get? name = some table) :
    manifest.hierarchy.supertypes? name = some (supertypes table) := by
  obtain ⟨hmem, rfl⟩ := Declarations.mem_of_get?_firstTables htable
  rw [(ofDeclarations_eq_ok h).2.1]
  refine supertypes?_foldl_declare_of_mem ?_ (OrderedMap.mem_values_iff.2 ⟨_, htable⟩) _
  rw [Declarations.names_firstTables]
  exact OrderedMap.keys_nodup _

theorem below_of_extends {bundle parent : TypeName} (hextends : declarations.Extends bundle parent) :
    manifest.hierarchy.Below bundle parent := by
  obtain ⟨table, htable, hparent⟩ :=
    Declarations.get?_of_extends (ofDeclarations_eq_ok h).1 hextends
  refine ⟨supertypes table, supertypes?_hierarchy h htable, ?_⟩
  rw [supertypes]
  split
  · exact hparent
  · exact List.mem_append_left _ hparent

variable {plan : Plan} (hhierarchy : plan.hierarchy = manifest.hierarchy)
  (hbundles : plan.bundles = manifest.bundles)
include hhierarchy hbundles

/-- The bundles above a declared bundle are among those its implementation implements. -/
theorem mem_implemented_of_above {bundle : Bundle} (hmem : bundle ∈ manifest.bundles.values)
    {above : TypeName} (habove : declarations.Above bundle.name above) :
    above ∈ Pass.implemented plan bundle := by
  obtain ⟨table, htable, -⟩ := exists_table_of_mem h hmem
  have hparents : manifest.hierarchy.parents? bundle.name =
      some (manifest.hierarchy.walk bundle.name [] (supertypes table)) := by
    rw [Hierarchy.parents?, supertypes?_hierarchy h htable]
    rfl
  have hbelow : Relation.TransGen manifest.hierarchy.Below bundle.name above :=
    Relation.TransGen.mono (fun _ _ hextends => below_of_extends h hextends) _ _ habove
  have hdeclared : above ∈ declarations.bundles.map (·.name) := by
    obtain ⟨_, -, hlast⟩ := Relation.TransGen.tail'_iff.1 habove
    exact hlast.choose_spec.2.2.2
  rw [Pass.implemented, hhierarchy, hparents, Option.getD_some, List.mem_filter, hbundles,
    contains_bundles h]
  rcases Hierarchy.mem_parents_of_below hparents hbelow with rfl | hparent
  · exact absurd habove (Declarations.not_above_self (ofDeclarations_eq_ok h).1 _)
  · exact ⟨hparent, hdeclared⟩

end

theorem nodup_cons_implemented (plan : Plan) (bundle : Bundle) :
    (bundle.name :: Pass.implemented plan bundle).Nodup := by
  rw [List.nodup_cons, Pass.implemented]
  cases hparents : plan.hierarchy.parents? bundle.name with
  | none => exact ⟨List.not_mem_nil, List.nodup_nil⟩
  | some parents =>
    obtain ⟨hnodup, hstart⟩ := Hierarchy.nodup_parents hparents
    exact ⟨fun hmem => hstart (List.mem_of_mem_filter hmem), hnodup.sublist List.filter_sublist⟩

end BundleForge.Manifest
