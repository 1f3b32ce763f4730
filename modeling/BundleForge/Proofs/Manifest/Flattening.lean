import BundleForge.Proofs.List
import BundleForge.Proofs.Manifest.Accepted
import Mathlib.Data.List.Induction
/-!
# Flattened accessors

The accessors of a bundle in an accepted manifest are those that its parents pass on and those that its
table declares, without repeated names. Where an accessor stands, what its settings are and who owns it
come from different tables: it stands where its name is first met, it has the settings of the table of
the bundle if that declares it, and it belongs to a bundle above that introduces it.
-/

namespace BundleForge.Inheritance

/-! ### The order of the names -/

section Order

variable {gathered : List Accessor} {met : List String}

/-- The names of what is gathered are those met so far, each where it was met first. -/
private theorem names_inherit (h : gathered.map (·.name) = met.eraseDups) (parent : TypeName)
    (passedOn : List Accessor) :
    (inherit parent gathered passedOn).map (·.name) = (met ++ passedOn.map (·.name)).eraseDups := by
  induction passedOn generalizing gathered met with
  | nil => rw [List.map_nil, List.append_nil, ← h, inherit, List.foldl_nil]
  | cons accessor rest ih =>
    have hmet : gathered.any (·.name = accessor.name) = true ↔ accessor.name ∈ met := by
      rw [← List.mem_eraseDups, ← h, List.any_eq_true, List.mem_map]
      simp only [decide_eq_true_eq]
    rw [inherit, List.foldl_cons, ← inherit, List.map_cons, List.append_cons met]
    refine ih ?_
    rw [eraseDups_concat]
    by_cases hmem : accessor.name ∈ met
    · rw [if_pos (hmet.2 hmem), if_pos hmem, h]
    · rw [if_neg (mt hmet.1 hmem), if_neg hmem, List.map_append, h, List.map_singleton]

private theorem names_foldl_inherit (h : gathered.map (·.name) = met.eraseDups)
    (parents : List TypeName) (passedOn : TypeName → List Accessor) :
    (parents.foldl (fun gathered parent => inherit parent gathered (passedOn parent))
        gathered).map (·.name) =
      (met ++ parents.flatMap fun parent => (passedOn parent).map (·.name)).eraseDups := by
  induction parents generalizing gathered met with
  | nil => rw [List.foldl_nil, h, List.flatMap_nil, List.append_nil]
  | cons parent rest ih =>
    rw [List.foldl_cons, ih (names_inherit h parent (passedOn parent)), List.flatMap_cons,
      List.append_assoc]

private theorem names_foldl_inherit_nil (parents : List TypeName) (passedOn : TypeName → List Accessor) :
    (parents.foldl (fun gathered parent => inherit parent gathered (passedOn parent)) []).map (·.name) =
      (parents.flatMap fun parent => (passedOn parent).map (·.name)).eraseDups := by
  have hnone : ([] : List Accessor).map (·.name) = ([] : List String).eraseDups := rfl
  rw [names_foldl_inherit hnone, List.nil_append]

private theorem names_foldl_override (h : gathered.map (·.name) = met.eraseDups)
    (own : List Accessor) :
    (own.foldl (fun gathered own => override own gathered) gathered).map (·.name) =
      (met ++ own.map (·.name)).eraseDups := by
  induction own generalizing gathered met with
  | nil => rw [List.foldl_nil, h, List.map_nil, List.append_nil]
  | cons first rest ih =>
    rw [List.foldl_cons, List.map_cons, List.append_cons met]
    refine ih ?_
    simp only [names_override, h, List.mem_eraseDups, eraseDups_concat]

end Order

/-! ### The settings of what is declared -/

section Settings

variable {gathered : List Accessor} {accessor : Accessor}

private theorem eq_of_mem_override (hnodup : (gathered.map (·.name)).Nodup) {own : Accessor}
    (h : accessor ∈ override own gathered) (hname : accessor.name = own.name) :
    accessor = { own with owner := accessor.owner } := by
  induction gathered with
  | nil =>
    obtain rfl := List.mem_singleton.1 h
    rfl
  | cons inherited rest ih =>
    rw [List.map_cons, List.nodup_cons] at hnodup
    rw [override] at h
    split at h
    · rename_i hsame
      rcases List.mem_cons.1 h with rfl | hrest
      · rfl
      · exact absurd (List.mem_map.2 ⟨accessor, hrest, hname.trans hsame.symm⟩) hnodup.1
    · rename_i hother
      rcases List.mem_cons.1 h with rfl | hrest
      · exact absurd hname hother
      · exact ih hnodup.2 hrest

private theorem eq_of_mem_foldl_override (hnodup : (gathered.map (·.name)).Nodup)
    {own : List Accessor} (hown : (own.map (·.name)).Nodup)
    (h : accessor ∈ own.foldl (fun gathered own => override own gathered) gathered)
    {declared : Accessor} (hmem : declared ∈ own) (hname : accessor.name = declared.name) :
    accessor = { declared with owner := accessor.owner } := by
  -- From the end of the list: what is overridden last is there, and the rest was there before.
  induction own using List.reverseRecOn with
  | nil => exact absurd hmem List.not_mem_nil
  | append_singleton before last ih =>
    rw [List.map_append, List.map_singleton] at hown
    have hbefore : last.name ∉ before.map (·.name) := fun hmet =>
      (List.nodup_append.1 hown).2.2 _ hmet _ (List.mem_singleton_self _) rfl
    rw [List.foldl_append, List.foldl_cons, List.foldl_nil] at h
    rcases List.mem_append.1 hmem with hearlier | hlast
    · have hne : accessor.name ≠ last.name := fun heq =>
        hbefore (heq ▸ hname ▸ List.mem_map_of_mem (f := (·.name)) hearlier)
      rcases mem_override h with hold | ⟨rfl, -⟩ | ⟨replaced, -, -, rfl⟩
      · exact ih (List.nodup_append.1 hown).1 hold hearlier
      · exact absurd rfl hne
      · exact absurd rfl hne
    · obtain rfl := List.mem_singleton.1 hlast
      refine eq_of_mem_override ?_ h hname
      rw [names_foldl_override (eraseDups_eq_self hnodup).symm]
      exact nodup_eraseDups _

end Settings

end BundleForge.Inheritance

namespace BundleForge

open Inheritance

namespace Declarations

variable {declarations : Declarations}

theorem nodup_names_of_mem (hproblems : declarations.problems = []) :
    ∀ table ∈ declarations.bundles, (table.accessors.map (·.name)).Nodup := by
  intro table hmem
  refine List.nodup_iff_forall_not_duplicate.2 fun name hname => ?_
  have hfault : .repeatedAccessor table.name name ∈ accessorProblems table.name [] table.accessors :=
    mem_accessorProblems_iff.2 (Or.inr ⟨name, hname, rfl⟩)
  exact not_mem_bundleProblems hproblems hmem _ (mem_bundleProblems_iff.2 (Or.inr (Or.inr hfault)))

section Accepted

variable (hproblems : declarations.problems = []) {bundle : TypeName} {table : Bundle}
  (htable : declarations.firstTables.get? bundle = some table)
include hproblems htable

/-- The names of the accessors of a bundle, in order: those of its parents and then its own, each where
it comes first. -/
theorem names_accessorsOf :
    (declarations.accessorsOf bundle).map (·.name) =
      ((table.supertypes.flatMap fun parent => (declarations.accessorsOf parent).map (·.name)) ++
        table.accessors.map (·.name)).eraseDups := by
  rw [accessorsOf_eq hproblems htable, inherited]
  exact names_foldl_override (names_foldl_inherit_nil ..) _

/-- What a bundle declares has the settings of its table, but the owner of what it overrides. -/
theorem eq_of_mem_accessorsOf {accessor declared : Accessor}
    (h : accessor ∈ declarations.accessorsOf bundle) (hmem : declared ∈ table.accessors)
    (hname : accessor.name = declared.name) : accessor = { declared with owner := accessor.owner } := by
  have hinherited : ((declarations.inherited table).map (·.name)).Nodup := by
    rw [inherited, names_foldl_inherit_nil]
    exact nodup_eraseDups _
  rw [accessorsOf_eq hproblems htable] at h
  exact eq_of_mem_foldl_override hinherited
    (nodup_names_of_mem hproblems table (mem_of_get?_firstTables htable).1) h hmem hname

end Accepted

theorem Attributed.owner_eq_none_iff {bundle : TypeName} {accessor : Accessor}
    (h : declarations.Attributed bundle accessor) :
    accessor.owner = none ↔
      ∀ above, declarations.Above bundle above → ¬ declarations.Declares above accessor.name := by
  rcases h with ⟨hnone, hintroduces⟩ | ⟨owner, howner, habove, hintroduces⟩
  · exact ⟨fun _ => hintroduces.2, fun _ => hnone⟩
  · constructor
    · intro hnone
      rw [hnone] at howner
      exact absurd howner (Option.some_ne_none owner).symm
    · exact fun hnot => absurd hintroduces.1 (hnot owner habove)

theorem Attributed.above_of_owner {bundle owner : TypeName} {accessor : Accessor}
    (h : declarations.Attributed bundle accessor) (howner : accessor.owner = some owner) :
    declarations.Above bundle owner ∧ declarations.Introduces owner accessor.name := by
  rcases h with ⟨hnone, -⟩ | ⟨other, hother, hfound⟩
  · rw [hnone] at howner
    exact absurd howner (Option.some_ne_none owner).symm
  · obtain rfl := Option.some.inj (hother.symm.trans howner)
    exact hfound

end Declarations

namespace Manifest

open Declarations

variable {declarations : Declarations} {manifest : Manifest} {bundle : Bundle}

/-- The names of the accessors of a bundle, of which a type that is no bundle has none. -/
def accessorNames (manifest : Manifest) (name : TypeName) : List String :=
  ((manifest.bundles.get? name).map (·.accessors.map (·.name))).getD []

/-- A bundle has the accessors of its table and of all bundles above it, flattened. -/
structure Flattens (declarations : Declarations) (manifest : Manifest) (table flattened : Bundle) :
    Prop where
  /-- Inheritance changes nothing but the accessors. -/
  others : flattened = { table with accessors := flattened.accessors }
  nodup : (flattened.accessors.map (·.name)).Nodup
  names : ∀ name, name ∈ flattened.accessors.map (·.name) ↔
    declarations.Declares flattened.name name ∨
      ∃ above, declarations.Above flattened.name above ∧ declarations.Declares above name
  order : flattened.accessors.map (·.name) =
    (table.supertypes.flatMap manifest.accessorNames ++ table.accessors.map (·.name)).eraseDups
  settings : ∀ declared ∈ table.accessors, ∀ accessor ∈ flattened.accessors,
    accessor.name = declared.name → accessor = { declared with owner := accessor.owner }
  owner_eq_none_iff : ∀ accessor ∈ flattened.accessors, accessor.owner = none ↔
    ∀ above, declarations.Above flattened.name above → ¬ declarations.Declares above accessor.name
  owner : ∀ accessor ∈ flattened.accessors, ∀ owner, accessor.owner = some owner →
    declarations.Above flattened.name owner ∧ declarations.Introduces owner accessor.name

theorem accessorNames_eq (h : ofDeclarations declarations = .ok manifest) (name : TypeName) :
    manifest.accessorNames name = (declarations.accessorsOf name).map (·.name) := by
  rw [accessorNames, get?_bundles h]
  cases htable : declarations.firstTables.get? name with
  | none =>
    rw [accessorsOf, accessors_of_get?_eq_none htable]
    rfl
  | some table => rfl

/-- Every bundle of an accepted manifest is one of its tables, flattened. -/
theorem exists_flattens {text : String} (hread : Toml.read Declarations.decode text = .ok declarations)
    (hparse : parse text = .ok manifest) (hmem : bundle ∈ manifest.bundles.values) :
    ∃ table ∈ declarations.bundles, Flattens declarations manifest table bundle := by
  have haccepted := ofDeclarations_of_parse hread hparse
  have hproblems := (ofDeclarations_eq_ok haccepted).1
  obtain ⟨table, htable, hbundle⟩ := exists_table_of_mem haccepted hmem
  have haccessors : bundle.accessors = declarations.accessorsOf bundle.name :=
    congrArg Bundle.accessors hbundle
  have hattributed : ∀ accessor ∈ bundle.accessors, declarations.Attributed bundle.name accessor := by
    rw [haccessors]
    exact fun accessor => attributed_of_mem_accessorsOf hproblems (owner_of_read hread)
  refine ⟨table, (mem_of_get?_firstTables htable).1, ?_⟩
  constructor
  case others => rw [haccessors, ← hbundle]
  case nodup =>
    rw [haccessors]
    exact nodup_names_accessorsOf declarations bundle.name
  case names =>
    rw [haccessors]
    exact fun name => mem_names_accessorsOf hproblems
  case order =>
    rw [haccessors, names_accessorsOf hproblems htable]
    simp only [← accessorNames_eq haccepted]
  case settings =>
    rw [haccessors]
    exact fun declared hdeclared accessor haccessor =>
      eq_of_mem_accessorsOf hproblems htable haccessor hdeclared
  case owner_eq_none_iff => exact fun accessor h => (hattributed accessor h).owner_eq_none_iff
  case owner => exact fun accessor h owner => (hattributed accessor h).above_of_owner

/-- A bundle with two parents that have one parent in common; it overrides what one of them adds. -/
def heirText : String :=
"[[bundles]]
name = \"crate::Base\"
accessors = [ \x7b name = \"greeting\", kind = \"TextResource\" \x7d ]

[[bundles]]
name = \"crate::Left\"
extends = [\"crate::Base\"]
accessors = [ \x7b name = \"note\", kind = \"TextResource\" \x7d ]

[[bundles]]
name = \"crate::Right\"
extends = [\"crate::Base\"]

[[bundles]]
name = \"crate::Heir\"
extends = [\"crate::Right\", \"crate::Left\"]
accessors = [
  \x7b name = \"own\", kind = \"TextResource\" \x7d,
  \x7b name = \"note\", kind = \"DataResource\", locale = \"de\" \x7d,
]
"

def heirTables : Declarations where
  types := []
  bundles := [
    { name := ⟨"crate::Base"⟩, accessors := [{ name := "greeting", kind := .textResource }] },
    { name := ⟨"crate::Left"⟩, supertypes := [⟨"crate::Base"⟩]
      accessors := [{ name := "note", kind := .textResource }] },
    { name := ⟨"crate::Right"⟩, supertypes := [⟨"crate::Base"⟩] },
    { name := ⟨"crate::Heir"⟩, supertypes := [⟨"crate::Right"⟩, ⟨"crate::Left"⟩]
      accessors := [
        { name := "own", kind := .textResource },
        { name := "note", kind := .dataResource, locale := some "de" }] }]

@[irreducible]
def heirManifest : Manifest := (ofDeclarations heirTables).toOption.getD ⟨.builtin, .empty⟩

def heir : Bundle where
  name := ⟨"crate::Heir"⟩
  supertypes := [⟨"crate::Right"⟩, ⟨"crate::Left"⟩]
  accessors := [
    { name := "greeting", kind := .textResource, owner := some ⟨"crate::Base"⟩ },
    { name := "note", kind := .dataResource, locale := some "de", owner := some ⟨"crate::Left"⟩ },
    { name := "own", kind := .textResource }]

set_option maxRecDepth 2000 in
private theorem read_heirText : Toml.read Declarations.decode heirText = .ok heirTables := by
  refine Toml.read_of_lines rfl ?_ ?_ <;> decide +kernel

private theorem parse_heirText : parse heirText = .ok heirManifest := by
  unfold heirManifest
  exact parse_of_isSome read_heirText (by decide +kernel) _

theorem exists_flattens_heir :
    ∃ table ∈ heirTables.bundles, Flattens heirTables heirManifest table heir :=
  exists_flattens read_heirText parse_heirText (by decide +kernel)

end Manifest

end BundleForge
