import BundleForge.Proofs.Manifest.Accepted
import BundleForge.Proofs.Pass.Wiring
/-!
# What a generated type implements

The type generated for a bundle implements the bundle itself and the declared bundles that the hierarchy
has above it. The methods with which it implements one of them are those of the accessors that
inheritance attributes to that bundle. Inheritance goes upwards through declared bundles only, while the
hierarchy has other types on the way, and of two accessors of one name it keeps the first. So a bundle
above may be implemented without a method that it introduces, and `implementsFully_iff` says exactly
when this does not happen.
-/

namespace BundleForge

open Implementation (pathInside conformanceOf held owners ownerOf)

/-- A module has one block for a bundle, with a method for each accessor that the bundle introduces. -/
structure Implementation.ImplementsFully (implementation : Implementation)
    (declarations : Declarations) (bundle : TypeName) : Prop where
  once : implementation.headers.count (pathInside bundle) = 1
  methods : ∃ conformance ∈ implementation.conformances, conformance.bundle = pathInside bundle ∧
    (conformance.methods.map (·.name)).Nodup ∧
    ∀ name, name ∈ conformance.methods.map (·.name) ↔ declarations.Introduces bundle name

namespace Pass

variable {declarations : Declarations} {manifest : Manifest} {plan : Plan} {bundle : Bundle}
  {locale : Option String} {σ : Type} {world : World σ}

/-- A bundle, or a declared bundle above it. -/
def AtOrAbove (declarations : Declarations) (bundle other : TypeName) : Prop :=
  other = bundle ∨ declarations.Above bundle other

/-- No two implemented bundles are one path inside the module, and none is the trait that every
generated type implements. -/
def DistinctPaths (plan : Plan) (bundle : Bundle) : Prop :=
  ((bundle.name :: implemented plan bundle).map pathInside ++ [TypeName.clientBundle.path]).Nodup

/-- Whatever introduces a name and is implemented is above the bundle through declared bundles. -/
def IntroducesAbove (declarations : Declarations) (plan : Plan) (bundle : Bundle) : Prop :=
  ∀ other ∈ implemented plan bundle, ∀ name,
    declarations.Introduces other name → declarations.Above bundle.name other

/-- No name is introduced twice at or above a bundle. -/
def IntroducedOnce (declarations : Declarations) (bundle : TypeName) : Prop :=
  ∀ first second name, AtOrAbove declarations bundle first → AtOrAbove declarations bundle second →
    declarations.Introduces first name → declarations.Introduces second name → first = second

/-- The accessors of an assembly are those of its bundle, which a manifest declares. -/
structure Assembles (declarations : Declarations) (plan : Plan) (bundle : Bundle)
    (assembly : Assembly) : Prop where
  bundle_eq : assembly.bundle = bundle
  supertypes_eq : assembly.supertypes = implemented plan bundle
  accessors_eq : assembly.accessors.map (·.accessor) = declarations.accessorsOf bundle.name
  attributed : ∀ accessor ∈ declarations.accessorsOf bundle.name,
    declarations.Attributed bundle.name accessor
  names : ∀ {name}, name ∈ (declarations.accessorsOf bundle.name).map (·.name) ↔
    ∃ other, AtOrAbove declarations bundle.name other ∧ declarations.Declares other name
  implements : ∀ {other}, AtOrAbove declarations bundle.name other →
    other ∈ bundle.name :: implemented plan bundle
  nodup : (bundle.name :: implemented plan bundle).Nodup

namespace Assembles

variable {assembly : Assembly} (h : Assembles declarations plan bundle assembly)
include h

theorem mem_names_conformanceOf {owner : TypeName} {name : String} :
    name ∈ (conformanceOf assembly (held assembly) owner).methods.map (·.name) ↔
      ∃ accessor ∈ declarations.accessorsOf bundle.name,
        accessor.name = name ∧ accessor.owner.getD bundle.name = owner := by
  rw [Implementation.names_conformanceOf, ← h.accessors_eq]
  simp only [List.mem_map, List.mem_filter, ownerOf, h.bundle_eq, decide_eq_true_eq]
  constructor
  · rintro ⟨code, ⟨hcode, howner⟩, hname⟩
    exact ⟨code.accessor, ⟨code, hcode, rfl⟩, hname, howner⟩
  · rintro ⟨_, ⟨code, hcode, rfl⟩, hname, howner⟩
    exact ⟨code, ⟨hcode, howner⟩, hname⟩

/-- A method is introduced by the bundle it implements, and that is the bundle or one above it. -/
theorem introduces_of_mem {owner : TypeName} {name : String}
    (hmem : name ∈ (conformanceOf assembly (held assembly) owner).methods.map (·.name)) :
    AtOrAbove declarations bundle.name owner ∧ declarations.Introduces owner name := by
  obtain ⟨accessor, haccessor, rfl, rfl⟩ := h.mem_names_conformanceOf.1 hmem
  rcases h.attributed accessor haccessor with ⟨hnone, hintroduces⟩ | ⟨owner, hsome, habove, hintroduces⟩
  · rw [hnone]
    exact ⟨Or.inl rfl, hintroduces⟩
  · rw [hsome]
    exact ⟨Or.inr habove, hintroduces⟩

/-- Everything that is introduced at or above the bundle is a method of some bundle. -/
theorem exists_owner {other : TypeName} {name : String}
    (hother : AtOrAbove declarations bundle.name other) (hintroduces : declarations.Introduces other name) :
    ∃ owner, name ∈ (conformanceOf assembly (held assembly) owner).methods.map (·.name) := by
  have hname := h.names.2 ⟨other, hother, hintroduces.1⟩
  obtain ⟨accessor, haccessor, rfl⟩ := List.mem_map.1 hname
  exact ⟨_, h.mem_names_conformanceOf.2 ⟨accessor, haccessor, rfl, rfl⟩⟩

theorem owner_unique {first second : TypeName} {name : String}
    (hfirst : name ∈ (conformanceOf assembly (held assembly) first).methods.map (·.name))
    (hsecond : name ∈ (conformanceOf assembly (held assembly) second).methods.map (·.name)) :
    first = second := by
  obtain ⟨a, ha, rfl, rfl⟩ := h.mem_names_conformanceOf.1 hfirst
  obtain ⟨b, hb, hname, rfl⟩ := h.mem_names_conformanceOf.1 hsecond
  rw [List.inj_on_of_nodup_map (declarations.nodup_names_accessorsOf bundle.name) hb ha hname]

theorem nodup_names (owner : TypeName) :
    ((conformanceOf assembly (held assembly) owner).methods.map (·.name)).Nodup := by
  have hnodup : (assembly.accessors.map (·.accessor.name)).Nodup := by
    have := declarations.nodup_names_accessorsOf bundle.name
    rwa [← h.accessors_eq, List.map_map] at this
  rw [Implementation.names_conformanceOf]
  exact hnodup.sublist (List.filter_sublist.map _)

theorem owners_eq : owners assembly = bundle.name :: implemented plan bundle := by
  rw [Implementation.owners_eq, h.bundle_eq, h.supertypes_eq]
  · rw [h.bundle_eq, h.supertypes_eq]
    exact h.nodup
  · intro code hcode
    rw [h.bundle_eq, h.supertypes_eq, ownerOf, h.bundle_eq]
    have haccessor : code.accessor ∈ declarations.accessorsOf bundle.name := by
      rw [← h.accessors_eq]
      exact List.mem_map_of_mem hcode
    have hname := h.mem_names_conformanceOf.2 ⟨code.accessor, haccessor, rfl, rfl⟩
    exact h.implements (h.introduces_of_mem hname).1

theorem distinctPaths_of_implementsFully
    (hfully : ∀ other ∈ bundle.name :: implemented plan bundle,
      (Implementation.ofAssembly assembly).ImplementsFully declarations other) :
    DistinctPaths plan bundle := by
  have hcount : ∀ path ∈ (bundle.name :: implemented plan bundle).map pathInside,
      ((bundle.name :: implemented plan bundle).map pathInside ++
        [TypeName.clientBundle.path]).count path = 1 := by
    intro path hpath
    obtain ⟨other, hother, rfl⟩ := List.mem_map.1 hpath
    have honce := (hfully other hother).once
    rwa [Implementation.headers_ofAssembly, h.owners_eq] at honce
  refine List.nodup_iff_count_eq_one.2 fun path hpath => ?_
  by_cases howner : path ∈ (bundle.name :: implemented plan bundle).map pathInside
  · exact hcount path howner
  · have hlast := (List.mem_append.1 hpath).resolve_left howner
    rw [List.count_append, List.count_eq_zero.2 howner, List.mem_singleton.1 hlast,
      List.count_singleton_self]

/-- Where paths differ, the block with the path of an implemented bundle is that bundle's own. -/
theorem eq_conformanceOf (hpaths : DistinctPaths plan bundle) {other : TypeName}
    (hother : other ∈ bundle.name :: implemented plan bundle) {conformance : Conformance}
    (hmem : conformance ∈ (Implementation.ofAssembly assembly).conformances)
    (hpath : conformance.bundle = pathInside other) :
    conformance = conformanceOf assembly (held assembly) other := by
  obtain ⟨owner, howner, rfl⟩ := List.mem_map.1 hmem
  rw [h.owners_eq] at howner
  rw [List.inj_on_of_nodup_map (List.nodup_append.1 hpaths).1 howner hother hpath]
  rfl

theorem forall_implementsFully_iff :
    (∀ other ∈ bundle.name :: implemented plan bundle,
      (Implementation.ofAssembly assembly).ImplementsFully declarations other) ↔
    DistinctPaths plan bundle ∧ IntroducesAbove declarations plan bundle ∧
      IntroducedOnce declarations bundle.name := by
  constructor
  · intro hfully
    have hpaths := h.distinctPaths_of_implementsFully hfully
    have hnames : ∀ other ∈ bundle.name :: implemented plan bundle, ∀ name,
        name ∈ (conformanceOf assembly (held assembly) other).methods.map (·.name) ↔
          declarations.Introduces other name := by
      intro other hother name
      obtain ⟨conformance, hmem, hpath, -, hmethods⟩ := (hfully other hother).methods
      rw [← h.eq_conformanceOf hpaths hother hmem hpath]
      exact hmethods name
    -- Methods stand only where an accessor is attributed: at or above the bundle, each at one place.
    refine ⟨hpaths, fun other hother name hintroduces => ?_,
      fun first second name hfirst hsecond hname hname' => ?_⟩
    · have hmem := (hnames other (List.mem_cons_of_mem _ hother) name).2 hintroduces
      rcases (h.introduces_of_mem hmem).1 with rfl | habove
      · exact absurd hother (List.nodup_cons.1 h.nodup).1
      · exact habove
    · exact h.owner_unique ((hnames first (h.implements hfirst) name).2 hname)
        ((hnames second (h.implements hsecond) name).2 hname')
  · rintro ⟨hpaths, habove, honce⟩ other hother
    refine ⟨?_, conformanceOf assembly (held assembly) other, ?_, rfl, h.nodup_names other,
      fun name => ⟨fun hname => (h.introduces_of_mem hname).2, fun hintroduces => ?_⟩⟩
    · rw [Implementation.headers_ofAssembly, h.owners_eq]
      exact List.count_eq_one_of_mem hpaths
        (List.mem_append_left _ (List.mem_map_of_mem hother))
    · rw [← h.owners_eq] at hother
      exact List.mem_map_of_mem hother
    · have hposition : AtOrAbove declarations bundle.name other := by
        rcases List.mem_cons.1 hother with rfl | hother
        · exact Or.inl rfl
        · exact Or.inr (habove other hother name hintroduces)
      obtain ⟨owner, howner⟩ := h.exists_owner hposition hintroduces
      have hfound := h.introduces_of_mem howner
      rwa [honce other owner name hposition hfound.1 hintroduces hfound.2]

end Assembles

variable [Sink σ]

/-- The assembly of a successful pass over a declared bundle has the accessors of that bundle, which its
generators all answered. -/
theorem assembles_of_generated {type : GeneratedType}
    (hnone : ∀ table ∈ declarations.bundles, ∀ accessor ∈ table.accessors, accessor.owner = none)
    (haccepted : Manifest.ofDeclarations declarations = .ok manifest)
    (hmem : bundle ∈ manifest.bundles.values)
    (hhierarchy : plan.hierarchy = manifest.hierarchy) (hbundles : plan.bundles = manifest.bundles)
    (hrun : (run plan bundle locale world).result = .generated type) :
    Assembles declarations plan bundle
      (assembly plan bundle locale (opening world) (tasksOf plan bundle)) := by
  have hproblems := (Manifest.ofDeclarations_eq_ok haccepted).1
  have haccessors : bundle.accessors = declarations.accessorsOf bundle.name := by
    obtain ⟨table, -, hbundle⟩ := Manifest.exists_table_of_mem haccepted hmem
    exact congrArg Bundle.accessors hbundle
  have hnames : (bundle.accessors.map (·.name)).Nodup :=
    haccessors ▸ declarations.nodup_names_accessorsOf bundle.name
  obtain ⟨hrefused, source, hwork, -⟩ := run_generated hrun
  obtain ⟨answer, expression, hanswered⟩ := exists_answers hrefused hwork hnames
  obtain ⟨slot, -, hcodes, -⟩ := exists_accessors_assembly hnames hanswered
  refine
    { bundle_eq := rfl
      supertypes_eq := rfl
      accessors_eq := ?_
      attributed := fun _ => Declarations.attributed_of_mem_accessorsOf hproblems hnone
      names := fun {name} => ?_
      implements := ?_
      nodup := Manifest.nodup_cons_implemented plan bundle }
  · rw [hcodes, List.map_map, ← haccessors]
    exact List.map_id _
  · rw [Declarations.mem_names_accessorsOf hproblems]
    constructor
    · rintro (hdeclares | ⟨above, habove, hdeclares⟩)
      · exact ⟨bundle.name, Or.inl rfl, hdeclares⟩
      · exact ⟨above, Or.inr habove, hdeclares⟩
    · rintro ⟨other, rfl | habove, hdeclares⟩
      · exact Or.inl hdeclares
      · exact Or.inr ⟨other, habove, hdeclares⟩
  · rintro other (rfl | habove)
    · exact List.mem_cons_self
    · exact List.mem_cons_of_mem _
        (Manifest.mem_implemented_of_above haccepted hhierarchy hbundles hmem habove)

/-- A successful pass commits a module that implements its bundle and everything it takes from the
hierarchy fully, exactly if their paths differ, all that introduce an accessor are above the bundle
through declared bundles, and no two of them introduce the same one. -/
theorem implementsFully_iff {text : String} {type : GeneratedType}
    (hread : Toml.read Declarations.decode text = .ok declarations)
    (hparse : Manifest.parse text = .ok manifest)
    (hmem : bundle ∈ manifest.bundles.values)
    (hhierarchy : plan.hierarchy = manifest.hierarchy) (hbundles : plan.bundles = manifest.bundles)
    (hrun : (run plan bundle locale world).result = .generated type) :
    ∃ implementation : Implementation,
      Commits plan bundle locale world implementation.source ∧
      ((∀ other ∈ bundle.name :: implemented plan bundle,
          implementation.ImplementsFully declarations other) ↔
        DistinctPaths plan bundle ∧ IntroducesAbove declarations plan bundle ∧
          IntroducedOnce declarations bundle.name) := by
  have hassembles := assembles_of_generated (Declarations.owner_of_read hread)
    (Manifest.ofDeclarations_of_parse hread hparse) hmem hhierarchy hbundles hrun
  exact ⟨_, commits_assembly hrun, hassembles.forall_implementsFully_iff⟩

/-- A bundle that extends another one through a type that is no bundle. -/
def familyText : String :=
"[[types]]
name = \"crate::Plain\"
extends = [\"crate::Base\"]

[[bundles]]
name = \"crate::Base\"
accessors = [ \x7b name = \"greeting\", kind = \"TextResource\" \x7d ]

[[bundles]]
name = \"crate::Derived\"
extends = [\"crate::Plain\"]
"

def base : Bundle where
  name := ⟨"crate::Base"⟩
  accessors := [{ name := "greeting", kind := .textResource }]

def derived : Bundle where
  name := ⟨"crate::Derived"⟩
  supertypes := [⟨"crate::Plain"⟩]

def familyTables : Declarations where
  types := [⟨⟨"crate::Plain"⟩, [⟨"crate::Base"⟩], none⟩]
  bundles := [base, derived]

@[irreducible]
def family : Manifest := (Manifest.ofDeclarations familyTables).toOption.getD ⟨.builtin, .empty⟩

def familyPlan : Plan := { hierarchy := family.hierarchy, bundles := family.bundles }

def emptyWorld : World MemorySink where
  files := .empty
  finder := {}
  sink := {}

set_option maxRecDepth 1000 in
private theorem read_familyText : Toml.read Declarations.decode familyText = .ok familyTables := by
  refine Toml.read_of_lines rfl ?_ ?_ <;> decide +kernel

private theorem parse_familyText : Manifest.parse familyText = .ok family := by
  unfold family
  exact Manifest.parse_of_isSome read_familyText (by decide +kernel) _

private theorem not_above_derived (above : TypeName) : ¬ familyTables.Above derived.name above := by
  intro habove
  obtain ⟨parent, ⟨table, hmem, hname, hparent, hdeclared⟩, -⟩ := Relation.TransGen.head'_iff.1 habove
  have hnone : ∀ table ∈ familyTables.bundles, table.name = derived.name →
      ∀ parent ∈ table.supertypes, parent ∉ familyTables.bundles.map (·.name) := by decide
  exact hnone table hmem hname parent hparent hdeclared

private theorem introduces_base : familyTables.Introduces base.name "greeting" := by
  refine ⟨⟨base, by decide, rfl, by decide⟩, fun above habove => ?_⟩
  obtain ⟨parent, ⟨table, hmem, hname, hparent, -⟩, -⟩ := Relation.TransGen.head'_iff.1 habove
  have hnone : ∀ table ∈ familyTables.bundles, table.name = base.name → table.supertypes = [] := by
    decide
  rw [hnone table hmem hname] at hparent
  exact absurd hparent List.not_mem_nil

private theorem base_mem_implemented : base.name ∈ implemented familyPlan derived := by
  have hderived : family.hierarchy.supertypes? derived.name = some [⟨"crate::Plain"⟩, .clientBundle] := by
    decide +kernel
  have hplain : family.hierarchy.supertypes? ⟨"crate::Plain"⟩ = some [base.name] := by decide +kernel
  have hparents : family.hierarchy.parents? derived.name = some (family.hierarchy.walk derived.name []
      [⟨"crate::Plain"⟩, .clientBundle]) := by
    rw [Hierarchy.parents?, hderived]
    rfl
  have hbelow : Relation.TransGen family.hierarchy.Below derived.name base.name :=
    .head ⟨_, hderived, List.mem_cons_self⟩ (.single ⟨_, hplain, List.mem_cons_self⟩)
  have hbundle : family.bundles.contains base.name = true := by decide +kernel
  have hparent := (Hierarchy.mem_parents_of_below hparents hbelow).resolve_left (by decide)
  rw [implemented, List.mem_filter]
  refine ⟨?_, hbundle⟩
  show base.name ∈ (family.hierarchy.parents? derived.name).getD []
  rwa [hparents]

theorem exists_not_implementsFully_family : ∃ implementation : Implementation,
    Commits familyPlan derived none emptyWorld implementation.source ∧
    ¬ ∀ other ∈ derived.name :: implemented familyPlan derived,
      implementation.ImplementsFully familyTables other := by
  have hmem : derived ∈ family.bundles.values := by decide +kernel
  have hrun : (run familyPlan derived none emptyWorld).result =
      .generated ⟨derived.name, none, "crate::DerivedImpl", none⟩ := by decide +kernel
  obtain ⟨implementation, hcommits, hiff⟩ :=
    implementsFully_iff read_familyText parse_familyText hmem rfl rfl hrun
  refine ⟨implementation, hcommits, fun hfully => ?_⟩
  have habove := (hiff.1 hfully).2.1 base.name base_mem_implemented "greeting" introduces_base
  exact not_above_derived _ habove

end Pass

end BundleForge
