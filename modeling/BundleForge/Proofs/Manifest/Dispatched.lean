import BundleForge.Proofs.Dispatch.Precedence
import BundleForge.Proofs.Manifest.Accepted
/-!
# How bundles are dispatched

Every bundle has the type of all bundles among its direct supertypes, where its table names it or at the
end, so some generator is found for every bundle. It is the one for nested bundles as long as no type of
resources is entered after the type of all bundles. A supertype named after that one can bring such a type,
and then the bundle is taken for a resource.
-/

namespace BundleForge

namespace Registry

variable {h : Hierarchy} {ty : TypeName} {kind : GeneratorKind}

def resourceTypes : List TypeName := [.textResource, .dataResource, .imageResource]

theorem get?_standard_eq_none_iff :
    standard.kinds.get? ty = none ↔ ty ≠ .clientBundle ∧ ty ∉ resourceTypes := by
  rw [get?_standard, resourceTypes]
  split_ifs <;> simp_all

theorem mem_resourceTypes_of_get? (hkind : standard.kinds.get? ty = some kind) (hne : ty ≠ .clientBundle) :
    ty ∈ resourceTypes := by
  by_contra hmem
  rw [get?_standard_eq_none_iff.2 ⟨hne, hmem⟩] at hkind
  exact absurd hkind (Option.some_ne_none kind).symm

theorem exists_get?_standard (hmem : ty ∈ resourceTypes) : ∃ kind, standard.kinds.get? ty = some kind := by
  rw [← Option.ne_none_iff_exists', ne_eq, get?_standard_eq_none_iff]
  exact fun hnone => hnone.2 hmem

/-! ### Types below the type of all bundles -/

section

variable {supertypes : List TypeName} (hfree : standard.kinds.get? ty = none)
  (hsupertypes : h.supertypes? ty = some supertypes) (hbundle : .clientBundle ∈ supertypes)

include hfree hsupertypes hbundle

theorem clientBundle_mem_parents {parents : List TypeName} (hparents : h.parents? ty = some parents) :
    .clientBundle ∈ parents := by
  have hbelow : h.Below ty .clientBundle := ⟨supertypes, hsupertypes, hbundle⟩
  exact (Hierarchy.mem_parents_of_below hparents (.single hbelow)).resolve_left
    (get?_standard_eq_none_iff.1 hfree).1.symm

theorem parents?_ne_root : h.parents? ty ≠ some [.root] := by
  intro hroot
  have hmem := clientBundle_mem_parents hfree hsupertypes hbundle hroot
  exact absurd (List.mem_singleton.1 hmem) (by decide)

theorem resolve_standard_eq_ok_iff {parents : List TypeName} (hparents : h.parents? ty = some parents) :
    standard.resolve h ty = .ok kind ↔ standard.LastOf parents kind := by
  refine resolve_eq_ok_iff hfree hparents ?_ fun hroot => ?_
  · exact List.ne_nil_of_mem (clientBundle_mem_parents hfree hsupertypes hbundle hparents)
  · exact parents?_ne_root hfree hsupertypes hbundle (hroot ▸ hparents)

theorem exists_resolve_standard : ∃ kind, standard.resolve h ty = .ok kind := by
  have hparents : h.parents? ty = some (h.walk ty [] supertypes) := by
    rw [Hierarchy.parents?, hsupertypes, Option.map_some]
  have hmem := clientBundle_mem_parents hfree hsupertypes hbundle hparents
  have hclient : standard.kinds.get? .clientBundle = some .bundle := rfl
  obtain ⟨kind, hlast⟩ := exists_lastOf hmem hclient
  exact ⟨kind, (resolve_standard_eq_ok_iff hfree hsupertypes hbundle hparents).2 hlast⟩

/-- The generator for nested bundles serves a type if no type of resources is entered after the type of all
bundles. -/
theorem resolve_standard_of_lastly {before after : List TypeName}
    (hparents : h.parents? ty = some (before ++ .clientBundle :: after))
    (hafter : ∀ resource ∈ resourceTypes, resource ∉ after) : standard.resolve h ty = .ok .bundle := by
  have hnodup := (Hierarchy.nodup_parents hparents).1
  rw [List.nodup_append, List.nodup_cons] at hnodup
  refine (resolve_standard_eq_ok_iff hfree hsupertypes hbundle hparents).2
    ⟨before, .clientBundle, after, rfl, rfl, fun other hother => get?_standard_eq_none_iff.2 ⟨?_, ?_⟩⟩
  · rintro rfl
    exact hnodup.2.1.1 hother
  · exact fun hresource => hafter other hresource hother

end

/-- Later supertypes that lead to the type of all bundles, and bring no type of resources, decide. -/
theorem resolve_standard_of_append {first rest : List TypeName} (hfree : standard.kinds.get? ty = none)
    (hsupertypes : h.supertypes? ty = some (first ++ rest)) (hbundle : .clientBundle ∈ first ++ rest)
    (hnew : ¬ h.Met ty first .clientBundle)
    (hshared : ∀ resource ∈ resourceTypes, h.AtOrAbove rest resource → h.Met ty first resource) :
    standard.resolve h ty = .ok .bundle := by
  have hrest : TypeName.clientBundle ∈ rest :=
    (List.mem_append.1 hbundle).resolve_left fun hfirst => hnew (Hierarchy.met_of_mem hfirst)
  obtain ⟨kind, hkind, found, habove, hfound, hfresh⟩ := exists_resolve_of_brings hfree hsupertypes
    (parents?_ne_root hfree hsupertypes hbundle)
    ⟨.bundle, .clientBundle, ⟨_, hrest, .refl⟩, rfl, hnew⟩
  -- Any other registered type that the later supertypes lead to was met before.
  have heq : found = .clientBundle := by
    by_contra hne
    have hresource := mem_resourceTypes_of_get? hfound hne
    exact hfresh (hshared found hresource habove)
  rw [heq] at hfound
  rw [hkind, ← Option.some.inj hfound]

/-- Supertypes named after the type of all bundles take precedence over it. -/
theorem exists_resolve_of_later {earlier later : List TypeName} (hfree : standard.kinds.get? ty = none)
    (hsupertypes : h.supertypes? ty = some (earlier ++ .clientBundle :: later))
    (hlater : ¬ h.AtOrAbove later .clientBundle) {resource : TypeName} (hresource : resource ∈ resourceTypes)
    (habove : h.AtOrAbove later resource) (hnew : ¬ h.Met ty (earlier ++ [.clientBundle]) resource) :
    ∃ resource ∈ resourceTypes, h.AtOrAbove later resource ∧
      ∃ kind, standard.kinds.get? resource = some kind ∧ standard.resolve h ty = .ok kind := by
  have hroot := parents?_ne_root hfree hsupertypes (List.mem_append_right _ List.mem_cons_self)
  rw [List.append_cons] at hsupertypes
  obtain ⟨kind, hkind⟩ := exists_get?_standard hresource
  obtain ⟨kind, hkind, found, habove, hfound, -⟩ :=
    exists_resolve_of_brings hfree hsupertypes hroot ⟨kind, resource, habove, hkind, hnew⟩
  refine ⟨found, mem_resourceTypes_of_get? hfound ?_, habove, kind, hfound, hkind⟩
  rintro rfl
  exact hlater habove

end Registry

namespace Manifest

open Registry (standard resourceTypes)

variable {declarations : Declarations} {manifest : Manifest} {bundle : Bundle}

theorem clientBundle_mem_supertypes (bundle : Bundle) : .clientBundle ∈ supertypes bundle := by
  rw [supertypes]
  split
  · assumption
  · exact List.mem_append_right _ (List.mem_singleton_self _)

theorem supertypes?_of_mem (h : ofDeclarations declarations = .ok manifest)
    (hmem : bundle ∈ manifest.bundles.values) :
    manifest.hierarchy.supertypes? bundle.name = some (supertypes bundle) := by
  obtain ⟨table, htable, hbundle⟩ := exists_table_of_mem h hmem
  rw [supertypes?_hierarchy h htable, hbundle]
  rfl

/-- Which generator serves the accessors that have a bundle for their type. -/
structure Dispatched (manifest : Manifest) (bundle : Bundle) : Prop where
  found : ∃ kind, standard.resolve manifest.hierarchy bundle.name = .ok kind
  registered : bundle.name ∈ resourceTypes → ∃ kind, standard.kinds.get? bundle.name = some kind ∧
    standard.resolve manifest.hierarchy bundle.name = .ok kind
  lastly : bundle.name ∉ resourceTypes → ∀ before after,
    manifest.hierarchy.parents? bundle.name = some (before ++ .clientBundle :: after) →
    (∀ resource ∈ resourceTypes, resource ∉ after) →
    standard.resolve manifest.hierarchy bundle.name = .ok .bundle
  /-- The supertypes can be cut in two so that only the later ones lead to the type of all bundles, and
  these lead to no type of resources that is not met before. -/
  nested : bundle.name ∉ resourceTypes → ∀ first rest, supertypes bundle = first ++ rest →
    ¬ manifest.hierarchy.Met bundle.name first .clientBundle →
    (∀ resource ∈ resourceTypes, manifest.hierarchy.AtOrAbove rest resource →
      manifest.hierarchy.Met bundle.name first resource) →
    standard.resolve manifest.hierarchy bundle.name = .ok .bundle
  /-- A supertype that is named after the type of all bundles brings a type of resources. -/
  overtaken : bundle.name ∉ resourceTypes → bundle.name ≠ .clientBundle →
    ∀ earlier later, supertypes bundle = earlier ++ .clientBundle :: later →
    ¬ manifest.hierarchy.AtOrAbove later .clientBundle →
    (∃ resource ∈ resourceTypes, manifest.hierarchy.AtOrAbove later resource ∧
      ¬ manifest.hierarchy.Met bundle.name (earlier ++ [.clientBundle]) resource) →
    ∃ resource ∈ resourceTypes, manifest.hierarchy.AtOrAbove later resource ∧
      ∃ kind, standard.kinds.get? resource = some kind ∧
        standard.resolve manifest.hierarchy bundle.name = .ok kind

/-- Every bundle is served, and taken for a nested bundle unless a type of resources is entered late. -/
theorem dispatched_of_parse {text : String} (hparse : parse text = .ok manifest)
    (hmem : bundle ∈ manifest.bundles.values) : Dispatched manifest bundle := by
  obtain ⟨declarations, haccepted⟩ := exists_declarations_of_parse hparse
  have hsupertypes := supertypes?_of_mem haccepted hmem
  have hbundle := clientBundle_mem_supertypes bundle
  have hcases : bundle.name ∉ resourceTypes → standard.resolve manifest.hierarchy bundle.name = .ok .bundle ∨
      standard.kinds.get? bundle.name = none := by
    intro hresource
    by_cases hname : bundle.name = .clientBundle
    · rw [hname]
      exact Or.inl (Registry.resolve_of_registered rfl _)
    · exact Or.inr (Registry.get?_standard_eq_none_iff.2 ⟨hname, hresource⟩)
  constructor
  case found =>
    cases hkind : standard.kinds.get? bundle.name with
    | some kind => exact ⟨kind, Registry.resolve_of_registered hkind _⟩
    | none => exact Registry.exists_resolve_standard hkind hsupertypes hbundle
  case registered =>
    intro hresource
    obtain ⟨kind, hkind⟩ := Registry.exists_get?_standard hresource
    exact ⟨kind, hkind, Registry.resolve_of_registered hkind _⟩
  case lastly =>
    intro hresource before after hparents hafter
    rcases hcases hresource with hdirect | hfree
    · exact hdirect
    · exact Registry.resolve_standard_of_lastly hfree hsupertypes hbundle hparents hafter
  case nested =>
    intro hresource first rest hsplit hnew hshared
    rcases hcases hresource with hdirect | hfree
    · exact hdirect
    · rw [hsplit] at hsupertypes hbundle
      exact Registry.resolve_standard_of_append hfree hsupertypes hbundle hnew hshared
  case overtaken =>
    rintro hresource hname earlier later hsplit hlater ⟨resource, hmem, habove, hnew⟩
    have hfree := Registry.get?_standard_eq_none_iff.2 ⟨hname, hresource⟩
    rw [hsplit] at hsupertypes
    exact Registry.exists_resolve_of_later hfree hsupertypes hlater hmem habove hnew

/-- Two bundles that extend a type of resources; one of them names the type of all bundles before it. -/
def notesText : String :=
"[[bundles]]
name = \"crate::Page\"

[[bundles.accessors]]
name = \"note\"
kind = \"crate::Note\"

[[bundles.accessors]]
name = \"label\"
kind = \"crate::Label\"

[[bundles]]
name = \"crate::Note\"
extends = [\"ClientBundle\", \"TextResource\"]

[[bundles]]
name = \"crate::Label\"
extends = [\"TextResource\"]
"

def noteAccessor : Accessor where
  name := "note"
  kind := ⟨"crate::Note"⟩

def page : Bundle where
  name := ⟨"crate::Page"⟩
  accessors := [noteAccessor, { name := "label", kind := ⟨"crate::Label"⟩ }]

def note : Bundle where
  name := ⟨"crate::Note"⟩
  supertypes := [.clientBundle, .textResource]

def label : Bundle where
  name := ⟨"crate::Label"⟩
  supertypes := [.textResource]

@[irreducible]
def notes : Manifest := (ofDeclarations ⟨[], [page, note, label]⟩).toOption.getD ⟨.builtin, .empty⟩

set_option maxRecDepth 2000 in
private theorem parse_notesText : parse notesText = .ok notes := by
  have hread : Toml.read Declarations.decode notesText = .ok ⟨[], [page, note, label]⟩ := by
    refine Toml.read_of_lines rfl ?_ ?_ <;> decide +kernel
  unfold notes
  exact parse_of_isSome hread (by decide +kernel) _

theorem dispatched_label :
    Dispatched notes label ∧ standard.resolve notes.hierarchy label.name = .ok .bundle := by
  have hmem : label ∈ notes.bundles.values := by decide +kernel
  have hdispatched := dispatched_of_parse parse_notesText hmem
  have hparents : notes.hierarchy.parents? label.name =
      some [.textResource, .resourcePrototype, .clientBundle] :=
    Hierarchy.parents?_of_walkWithin 3 (by decide +kernel)
  exact ⟨hdispatched, hdispatched.lastly (by decide) [.textResource, .resourcePrototype] [] hparents
    fun _ _ => List.not_mem_nil⟩

/-- A bundle that is taken for a text. -/
theorem not_forall_nested :
    ¬ ∀ (text : String) (manifest : Manifest), parse text = .ok manifest →
      ∀ page ∈ manifest.bundles.values, ∀ accessor ∈ page.accessors,
        accessor.kind ∈ manifest.bundles.values.map (·.name) →
          standard.resolve manifest.hierarchy accessor.kind = .ok .bundle := by
  intro hall
  have hbundle : standard.resolve notes.hierarchy ⟨"crate::Note"⟩ = .ok .bundle :=
    hall _ _ parse_notesText page (by decide +kernel) noteAccessor (by decide +kernel) (by decide +kernel)
  have hparents : notes.hierarchy.parents? ⟨"crate::Note"⟩ =
      some ([.clientBundle] ++ .textResource :: [.resourcePrototype]) :=
    Hierarchy.parents?_of_walkWithin 3 (by decide +kernel)
  have htext : standard.resolve notes.hierarchy ⟨"crate::Note"⟩ = .ok .text :=
    (Registry.resolve_eq_ok_iff rfl hparents (by decide) (by decide)).2
      ⟨[.clientBundle], .textResource, [.resourcePrototype], rfl, rfl, List.forall_mem_singleton.2 rfl⟩
  have hsame : GeneratorKind.text = .bundle := Except.ok.inj (htext.symm.trans hbundle)
  exact absurd (congrArg GeneratorKind.id hsame) (by decide)

end Manifest

end BundleForge
