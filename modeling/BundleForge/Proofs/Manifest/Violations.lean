import BundleForge.Proofs.Manifest.Circles
/-!
# What is wrong with a manifest, and what is reported of it

A manifest may be wrong in several ways at once. Each of them is stated here of the tables alone; the checks
find all but one: a supertype that nobody declares goes unnoticed in a table that repeats the name of an
earlier one. Such a table is a problem itself, so that a manifest is accepted only if nothing is wrong.
-/

namespace BundleForge

namespace Declarations

variable {declarations : Declarations} {problem : Problem}

/-- What is wrong with a manifest, whether it is found or not. -/
inductive Violates (declarations : Declarations) : Problem → Prop
  | namelessType {type : TypeDeclaration} (hmem : type ∈ declarations.types)
      (hname : type.name.path = "") : Violates declarations .namelessType
  | bundleName {table : Bundle} (hmem : table ∈ declarations.bundles)
      (hname : Identifier.isValid table.name.simpleName = false) :
      Violates declarations (.bundleName table.name)
  | enclosingName {table : Bundle} {enclosing : String} (hmem : table ∈ declarations.bundles)
      (henclosing : enclosing ∈ table.enclosing) (hname : Identifier.isValid enclosing = false) :
      Violates declarations (.enclosingName table.name enclosing)
  | accessorName {table : Bundle} {accessor : Accessor} (hmem : table ∈ declarations.bundles)
      (haccessor : accessor ∈ table.accessors) (hname : Identifier.isValid accessor.name = false) :
      Violates declarations (.accessorName table.name accessor.name)
  | repeatedAccessor {table : Bundle} {name : String} (hmem : table ∈ declarations.bundles)
      (hname : List.Duplicate name (table.accessors.map (·.name))) :
      Violates declarations (.repeatedAccessor table.name name)
  | repeatedBundle {name : TypeName} (hname : List.Duplicate name (declarations.bundles.map (·.name))) :
      Violates declarations (.repeatedBundle name)
  | unknownSupertype {table : Bundle} {ty : TypeName} (hmem : table ∈ declarations.bundles)
      (hty : ty ∈ table.supertypes) (hbundle : ty ∉ declarations.bundles.map (·.name))
      (hknown : ¬ declarations.Known ty) : Violates declarations (.unknownSupertype table.name ty)
  /-- Only the first table of a repeated name counts: a circle that leads through a later one is none. -/
  | circle {bundle : TypeName} (hcircle : declarations.firstOnly.Above bundle bundle) :
      Violates declarations (.circle bundle)

/-- Supertypes are looked up for the first table of a bundle only; all else is checked in every table. -/
def Checked (declarations : Declarations) : Problem → Prop
  | .unknownSupertype bundle ty =>
    ∃ table, declarations.firstTables.get? bundle = some table ∧ ty ∈ table.supertypes
  | _ => True

theorem mem_problems_of_violates (h : declarations.Violates problem) (hchecked : declarations.Checked problem) :
    problem ∈ declarations.problems := by
  cases h with
  | namelessType hmem hname => exact mem_problems_iff.2 (Or.inl ⟨_, hmem, hname, rfl⟩)
  | bundleName hmem hname =>
    refine mem_problems_iff.2 (Or.inr (Or.inl ⟨_, hmem, mem_bundleProblems_iff.2 ?_⟩))
    exact Or.inl ⟨hname, rfl⟩
  | enclosingName hmem henclosing hname =>
    refine mem_problems_iff.2 (Or.inr (Or.inl ⟨_, hmem, mem_bundleProblems_iff.2 ?_⟩))
    exact Or.inr (Or.inl ⟨_, henclosing, hname, rfl⟩)
  | accessorName hmem haccessor hname =>
    refine mem_problems_iff.2 (Or.inr (Or.inl ⟨_, hmem, mem_bundleProblems_iff.2 ?_⟩))
    exact Or.inr (Or.inr (mem_accessorProblems_iff.2 (Or.inl ⟨_, haccessor, hname, rfl⟩)))
  | repeatedAccessor hmem hname =>
    refine mem_problems_iff.2 (Or.inr (Or.inl ⟨_, hmem, mem_bundleProblems_iff.2 ?_⟩))
    exact Or.inr (Or.inr (mem_accessorProblems_iff.2 (Or.inr ⟨_, hname, rfl⟩)))
  | repeatedBundle hname => exact mem_problems_iff.2 (Or.inr (Or.inr (Or.inl ⟨_, hname, rfl⟩)))
  | unknownSupertype hmem hty hbundle hknown =>
    obtain ⟨table, htable, hmem⟩ := hchecked
    obtain ⟨-, hname⟩ := mem_of_get?_firstTables htable
    refine mem_problems_iff.2 (Or.inr (Or.inr (Or.inr (Or.inl ?_))))
    exact ⟨table, OrderedMap.mem_values_iff.2 ⟨_, htable⟩, _, hmem, hbundle, hknown, by rw [hname]⟩
  | circle hcircle => exact circle_mem_problems_iff.2 hcircle

theorem violates_of_mem_problems (h : problem ∈ declarations.problems) :
    declarations.Violates problem ∧ declarations.Checked problem := by
  rcases mem_problems_iff.1 h with ⟨type, hmem, hname, rfl⟩ | ⟨table, hmem, hfault⟩ | ⟨name, hname, rfl⟩ |
    ⟨table, hvalue, ty, hty, hbundle, hknown, rfl⟩ | ⟨name, hname, bundle, hcircle, rfl⟩
  · exact ⟨.namelessType hmem hname, trivial⟩
  · rcases mem_bundleProblems_iff.1 hfault with ⟨hname, rfl⟩ | ⟨enclosing, henclosing, hname, rfl⟩ | hfault
    · exact ⟨.bundleName hmem hname, trivial⟩
    · exact ⟨.enclosingName hmem henclosing hname, trivial⟩
    · rcases mem_accessorProblems_iff.1 hfault with ⟨accessor, haccessor, hname, rfl⟩ | ⟨name, hname, rfl⟩
      · exact ⟨.accessorName hmem haccessor hname, trivial⟩
      · exact ⟨.repeatedAccessor hmem hname, trivial⟩
  · exact ⟨.repeatedBundle hname, trivial⟩
  · have htable := mem_bundles_firstOnly.1 hvalue
    exact ⟨.unknownSupertype (mem_of_get?_firstTables htable).1 hty hbundle hknown, table, htable, hty⟩
  · exact ⟨.circle (circle_mem_problems_iff.1 h), trivial⟩

theorem mem_problems_iff_violates :
    problem ∈ declarations.problems ↔ declarations.Violates problem ∧ declarations.Checked problem :=
  ⟨violates_of_mem_problems, fun h => mem_problems_of_violates h.1 h.2⟩

/-- Where nothing is found nothing is wrong: without repeated names every table is the first of its bundle. -/
theorem problems_eq_nil_iff : declarations.problems = [] ↔ ∀ problem, ¬ declarations.Violates problem := by
  constructor
  · intro hproblems problem h
    have hchecked : declarations.Checked problem := by
      cases h with
      | unknownSupertype hmem hty hbundle hknown =>
        exact ⟨_, get?_firstTables_of_mem hproblems hmem, hty⟩
      | _ => trivial
    exact not_mem_problems hproblems problem (mem_problems_of_violates h hchecked)
  · exact fun hnone => List.eq_nil_iff_forall_not_mem.2 fun problem hmem =>
      hnone problem (violates_of_mem_problems hmem).1

end Declarations

namespace Manifest

/-- What parsing a text reports of the violations in its declarations. -/
structure ReportsViolations (declarations : Declarations) (text : String) : Prop where
  accepted_iff : (∃ manifest, parse text = .ok manifest) ↔ ∀ problem, ¬ declarations.Violates problem
  refused : ∀ problem, declarations.Violates problem →
    parse text = .error { cause := .problems (reported text) }
  reported_iff : ∀ problem, problem ∈ reported text ↔
    declarations.Violates problem ∧ declarations.Checked problem
  line_iff : ∀ line, line ∈ Problem.messages (reported text) ↔
    ∃ problem, declarations.Violates problem ∧ declarations.Checked problem ∧ problem.message = line
  /-- Every violation is reported just if the tables after the first one of a bundle name no unknown
  supertypes that the first one does not name. -/
  complete_iff : (∀ problem, declarations.Violates problem → problem ∈ reported text) ↔
    ∀ table ∈ declarations.bundles, ∀ ty ∈ table.supertypes,
      ty ∉ declarations.bundles.map (·.name) → ¬ declarations.Known ty →
        ∃ first, declarations.firstTables.get? table.name = some first ∧ ty ∈ first.supertypes

/-- Everything that is wrong is reported, but for unknown supertypes in tables that repeat a name. -/
theorem reportsViolations_of_read {declarations : Declarations} {text : String}
    (hread : Toml.read Declarations.decode text = .ok declarations) : ReportsViolations declarations text := by
  have hreported : ∀ problem, problem ∈ reported text ↔
      declarations.Violates problem ∧ declarations.Checked problem := by
    rw [reported_of_read hread]
    exact fun problem => Declarations.mem_problems_iff_violates
  have haccepted : (∃ manifest, parse text = .ok manifest) ↔ ∀ problem, ¬ declarations.Violates problem := by
    rw [exists_parse_iff hread, Declarations.problems_eq_nil_iff]
  constructor
  case accepted_iff => exact haccepted
  case refused =>
    intro problem hviolates
    refine parse_eq_error hread fun hnone => ?_
    exact Declarations.problems_eq_nil_iff.1 hnone problem hviolates
  case reported_iff => exact hreported
  case line_iff =>
    intro line
    simp only [Problem.mem_messages_iff, hreported, and_assoc]
  case complete_iff =>
    constructor
    · intro hall table hmem ty hty hbundle hknown
      exact ((hreported _).1 (hall _ (.unknownSupertype hmem hty hbundle hknown))).2
    · intro hfirst problem hviolates
      refine (hreported problem).2 ⟨hviolates, ?_⟩
      cases hviolates with
      | unknownSupertype hmem hty hbundle hknown => exact hfirst _ hmem _ hty hbundle hknown
      | _ => trivial

/-- A bundle with two tables, the second of which extends a type that nobody declares. -/
def hiddenText : String :=
"[[bundles]]
name = \"crate::Icons\"

[[bundles]]
name = \"crate::Icons\"
extends = [\"crate::Nowhere\"]
"

def laterIcons : Bundle where
  name := ⟨"crate::Icons"⟩
  supertypes := [⟨"crate::Nowhere"⟩]

def hiddenTables : Declarations := ⟨[], [{ name := ⟨"crate::Icons"⟩ }, laterIcons]⟩

private theorem read_hiddenText : Toml.read Declarations.decode hiddenText = .ok hiddenTables := by
  refine Toml.read_of_lines rfl ?_ ?_ <;> decide +kernel

/-- The repetition is reported, and the unknown type is not. -/
theorem reportsViolations_hidden :
    ReportsViolations hiddenTables hiddenText ∧
      hiddenTables.Violates (.unknownSupertype ⟨"crate::Icons"⟩ ⟨"crate::Nowhere"⟩) ∧
      reported hiddenText = [.repeatedBundle ⟨"crate::Icons"⟩] := by
  have hunknown : hiddenTables.Violates (.unknownSupertype ⟨"crate::Icons"⟩ ⟨"crate::Nowhere"⟩) := by
    have hmem : laterIcons ∈ hiddenTables.bundles := List.mem_cons_of_mem _ List.mem_cons_self
    refine .unknownSupertype hmem List.mem_cons_self ?_ ?_
    · decide +kernel
    · rintro (hbuiltin | ⟨type, hmem, -⟩)
      · exact absurd hbuiltin (by decide +kernel)
      · exact absurd hmem List.not_mem_nil
  refine ⟨reportsViolations_of_read read_hiddenText, hunknown, ?_⟩
  rw [reported_of_read read_hiddenText]
  decide +kernel

end Manifest

end BundleForge
