import BundleForge.Proofs.Identifier
import BundleForge.Proofs.Manifest.Accepted
/-!
# Names in accepted manifests

In a manifest without problems the bundles, the types around them and all accessors are named by identifiers; an
accessor that is inherited was declared under its name in a table above.
-/

namespace BundleForge

open Identifier

structure Bundle.WellNamed (bundle : Bundle) : Prop where
  simpleName : isValid bundle.name.simpleName = true
  enclosing : ∀ name ∈ bundle.enclosing, isValid name = true
  accessors : ∀ accessor ∈ bundle.accessors, isValid accessor.name = true

/-- The name of the implementation before a locale and the ending are added to it. -/
def Bundle.joinedName (bundle : Bundle) : String :=
  String.intercalate "_" (bundle.enclosing ++ [bundle.name.simpleName])

theorem Bundle.WellNamed.fits_joinedName {bundle : Bundle} (h : bundle.WellNamed) : Fits bundle.joinedName := by
  have hnames : ∀ name ∈ bundle.enclosing ++ [bundle.name.simpleName], isValid name = true :=
    List.forall_mem_append.2 ⟨h.enclosing, List.forall_mem_singleton.2 h.simpleName⟩
  have hchars : bundle.joinedName.toList =
      ['_'].intercalate ((bundle.enclosing ++ [bundle.name.simpleName]).map String.toList) :=
    String.toList_intercalate ..
  constructor
  · rw [hchars]
    refine forall_mem_intercalate (p := (canContinue · = true)) (by decide) (List.forall_mem_map.2 ?_)
    exact fun name hname => (fits_of_isValid (hnames name hname)).body
  · rw [beginsWithDigit, hchars]
    cases hjoined : bundle.enclosing ++ [bundle.name.simpleName] with
    | nil => exact absurd hjoined (List.concat_ne_nil _ _)
    | cons first rest =>
      rw [hjoined, List.forall_mem_cons] at hnames
      have hfirst := isValid_iff.1 hnames.1
      have hne : first.toList ≠ [] := fun hnil => hfirst.1 (String.toList_eq_nil_iff.1 hnil)
      rw [List.map_cons, Text.head?_intercalate _ hne]
      exact hfirst.2.2.1

namespace Declarations

variable {declarations : Declarations}

theorem wellNamed_of_mem (hproblems : declarations.problems = []) :
    ∀ table ∈ declarations.bundles, table.WellNamed := by
  intro table hmem
  have hnone := not_mem_bundleProblems hproblems hmem
  constructor
  case simpleName =>
    by_contra hnot
    exact hnone _ (mem_bundleProblems_iff.2 (Or.inl ⟨Bool.eq_false_iff.2 hnot, rfl⟩))
  case enclosing =>
    intro name hname
    by_contra hnot
    exact hnone _ (mem_bundleProblems_iff.2 (Or.inr (Or.inl ⟨name, hname, Bool.eq_false_iff.2 hnot, rfl⟩)))
  case accessors =>
    intro accessor haccessor
    by_contra hnot
    have hfault : .accessorName table.name accessor.name ∈ accessorProblems table.name [] table.accessors :=
      mem_accessorProblems_iff.2 (Or.inl ⟨accessor, haccessor, Bool.eq_false_iff.2 hnot, rfl⟩)
    exact hnone _ (mem_bundleProblems_iff.2 (Or.inr (Or.inr hfault)))

theorem isValid_of_declares (hproblems : declarations.problems = []) {bundle : TypeName} {name : String}
    (h : declarations.Declares bundle name) : isValid name = true := by
  obtain ⟨table, hmem, -, hname⟩ := h
  obtain ⟨accessor, haccessor, rfl⟩ := List.mem_map.1 hname
  exact (wellNamed_of_mem hproblems table hmem).accessors accessor haccessor

end Declarations

open Declarations in
theorem Manifest.wellNamed_of_mem {declarations : Declarations} {manifest : Manifest}
    (h : ofDeclarations declarations = .ok manifest) {bundle : Bundle} (hmem : bundle ∈ manifest.bundles.values) :
    bundle.WellNamed := by
  have hproblems := (ofDeclarations_eq_ok h).1
  obtain ⟨table, htable, hbundle⟩ := exists_table_of_mem h hmem
  have htableNamed := Declarations.wellNamed_of_mem hproblems table (mem_of_get?_firstTables htable).1
  refine ⟨by rw [hbundle]; exact htableNamed.simpleName, by rw [hbundle]; exact htableNamed.enclosing, ?_⟩
  intro accessor haccessor
  rw [hbundle] at haccessor
  have hname := List.mem_map_of_mem (f := (·.name)) haccessor
  rcases (mem_names_accessorsOf hproblems).1 hname with hdeclares | ⟨above, -, hdeclares⟩
  · exact isValid_of_declares hproblems hdeclares
  · exact isValid_of_declares hproblems hdeclares

end BundleForge
