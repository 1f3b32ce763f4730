import BundleForge.Manifest
import BundleForge.Proofs.Manifest.Tables
import Mathlib.Data.List.Duplicate
/-!
# Which problems are found

Each check of a manifest goes through a list once, with the names it has met. What it finds is said here
without that: a name that is met again is one that the list has twice. So there is one table for each bundle
where nothing is found. When a manifest is parsed, exactly the problems of its declarations are reported, and
none means that it is accepted.
-/

namespace BundleForge

/-! ### Names that come again -/

/-- Among names that follow others one is met again. -/
def Again {α : Type*} (before names : List α) (name : α) : Prop :=
  (name ∈ before ∧ name ∈ names) ∨ List.Duplicate name names

section Again

variable {α : Type*} {before names : List α} {first name : α}

theorem not_again_nil : ¬ Again before [] name := by
  rintro (⟨-, hmem⟩ | hmem)
  · exact List.not_mem_nil hmem
  · exact List.not_duplicate_nil _ hmem

theorem again_cons_iff :
    Again before (first :: names) name ↔
      (name = first ∧ first ∈ before) ∨ Again (first :: before) names name := by
  rw [Again, Again, List.duplicate_cons_iff, List.mem_cons, List.mem_cons]
  constructor
  · rintro (⟨hbefore, rfl | hmem⟩ | ⟨rfl, hmem⟩ | hmem)
    · exact Or.inl ⟨rfl, hbefore⟩
    · exact Or.inr (Or.inl ⟨Or.inr hbefore, hmem⟩)
    · exact Or.inr (Or.inl ⟨Or.inl rfl, hmem⟩)
    · exact Or.inr (Or.inr hmem)
  · rintro (⟨rfl, hbefore⟩ | ⟨rfl | hbefore, hmem⟩ | hmem)
    · exact Or.inl ⟨hbefore, Or.inl rfl⟩
    · exact Or.inr (Or.inl ⟨rfl, hmem⟩)
    · exact Or.inl ⟨hbefore, Or.inr hmem⟩
    · exact Or.inr (Or.inr hmem)

theorem again_nil_iff : Again [] names name ↔ List.Duplicate name names :=
  ⟨fun h => h.elim (fun hmem => absurd hmem.1 List.not_mem_nil) id, Or.inr⟩

/-- A check that goes through a list finds what is wrong with each item, and the names that come again. -/
theorem mem_check_iff {ι β : Type*} [DecidableEq α] {check : List α → List ι → List β} (key : ι → α)
    (faults : ι → List β) (again : α → β) (hnil : ∀ before, check before [] = [])
    (hcons : ∀ before item rest, check before (item :: rest) =
      faults item ++ (if key item ∈ before then [again (key item)] else []) ++
        check (key item :: before) rest)
    {before : List α} {items : List ι} {problem : β} :
    problem ∈ check before items ↔
      (∃ item ∈ items, problem ∈ faults item) ∨
        ∃ name, Again before (items.map key) name ∧ problem = again name := by
  induction items generalizing before with
  | nil =>
    rw [hnil]
    constructor
    · exact fun h => absurd h List.not_mem_nil
    · rintro (⟨item, hmem, -⟩ | ⟨name, hname, -⟩)
      · exact absurd hmem List.not_mem_nil
      · exact absurd hname not_again_nil
  | cons item rest ih =>
    have hfirst : problem ∈ (if key item ∈ before then [again (key item)] else []) ↔
        ∃ name, (name = key item ∧ key item ∈ before) ∧ problem = again name := by
      split
      · rename_i hmem
        rw [List.mem_singleton]
        exact ⟨fun h => ⟨_, ⟨rfl, hmem⟩, h⟩, fun ⟨_, ⟨hname, _⟩, h⟩ => hname ▸ h⟩
      · rename_i hmem
        exact ⟨fun h => absurd h List.not_mem_nil, fun ⟨_, ⟨_, h⟩, _⟩ => absurd h hmem⟩
    rw [hcons, List.mem_append, List.mem_append, ih, hfirst, List.exists_mem_cons_iff, List.map_cons]
    simp only [again_cons_iff, or_and_right, exists_or]
    rw [or_assoc, or_assoc, or_left_comm (a := ∃ name, (name = key item ∧ key item ∈ before) ∧ _)]

end Again

namespace Declarations

variable {declarations : Declarations} {bundle : TypeName} {table : Bundle} {problem : Problem}

/-! ### What each check finds -/

theorem mem_accessorProblems_iff {accessors : List Accessor} :
    problem ∈ accessorProblems bundle [] accessors ↔
      (∃ accessor ∈ accessors, Identifier.isValid accessor.name = false ∧
        problem = .accessorName bundle accessor.name) ∨
      ∃ name, List.Duplicate name (accessors.map (·.name)) ∧ problem = .repeatedAccessor bundle name := by
  have hfault : ∀ accessor : Accessor,
      problem ∈ (if Identifier.isValid accessor.name then [] else
        [Problem.accessorName bundle accessor.name]) ↔
      Identifier.isValid accessor.name = false ∧ problem = .accessorName bundle accessor.name := by
    intro accessor
    cases Identifier.isValid accessor.name <;> simp
  rw [mem_check_iff (·.name) _ (.repeatedAccessor bundle) (fun _ => rfl) fun _ _ _ => rfl]
  simp only [hfault, again_nil_iff]

theorem mem_bundleProblems_iff :
    problem ∈ bundleProblems table ↔
      (Identifier.isValid table.name.simpleName = false ∧ problem = .bundleName table.name) ∨
      (∃ enclosing ∈ table.enclosing, Identifier.isValid enclosing = false ∧
        problem = .enclosingName table.name enclosing) ∨
      problem ∈ accessorProblems table.name [] table.accessors := by
  have hname : problem ∈ (if Identifier.isValid table.name.simpleName then [] else
      [Problem.bundleName table.name]) ↔
      Identifier.isValid table.name.simpleName = false ∧ problem = .bundleName table.name := by
    cases Identifier.isValid table.name.simpleName <;> simp
  have henclosing : problem ∈ (table.enclosing.filter (!Identifier.isValid ·)).map
      (.enclosingName table.name) ↔
      ∃ enclosing ∈ table.enclosing, Identifier.isValid enclosing = false ∧
        problem = .enclosingName table.name enclosing := by
    simp only [List.mem_map, List.mem_filter, Bool.not_eq_true', and_assoc, eq_comm (b := problem)]
  rw [bundleProblems, List.mem_append, List.mem_append, hname, henclosing, or_assoc]

theorem mem_tableProblems_iff {tables : List Bundle} :
    problem ∈ tableProblems [] tables ↔
      (∃ table ∈ tables, problem ∈ bundleProblems table) ∨
      ∃ name, List.Duplicate name (tables.map (·.name)) ∧ problem = .repeatedBundle name := by
  rw [mem_check_iff (·.name) bundleProblems .repeatedBundle (fun _ => rfl) fun _ _ _ => rfl]
  simp only [again_nil_iff]

/-- A type that is built in or declared under a name. -/
def Known (declarations : Declarations) (ty : TypeName) : Prop :=
  Hierarchy.builtin.contains ty = true ∨
    ∃ type ∈ declarations.types, type.name.path ≠ "" ∧ type.name = ty

theorem contains_declare {hierarchy : Hierarchy} {ty other : TypeName} {supertypes : List TypeName}
    {extensions : Option (List String)} :
    (hierarchy.declare ty supertypes extensions).contains other = true ↔
      other = ty ∨ hierarchy.contains other = true := by
  rw [Hierarchy.contains, Hierarchy.declare, OrderedMap.contains, OrderedMap.get?_insert]
  split
  · simp [*]
  · simp [*, Hierarchy.contains, OrderedMap.contains]

private theorem contains_foldl_declare {types : List TypeDeclaration} {hierarchy : Hierarchy} {ty : TypeName} :
    (types.foldl (fun hierarchy type => hierarchy.declare type.name type.supertypes type.extensions)
        hierarchy).contains ty = true ↔
      hierarchy.contains ty = true ∨ ∃ type ∈ types, type.name = ty := by
  induction types generalizing hierarchy with
  | nil => simp
  | cons type rest ih =>
    rw [List.foldl_cons, ih, contains_declare, List.exists_mem_cons_iff, or_assoc, or_left_comm,
      eq_comm (a := ty)]

theorem contains_typeHierarchy {ty : TypeName} :
    declarations.typeHierarchy.contains ty = true ↔ declarations.Known ty := by
  rw [typeHierarchy, contains_foldl_declare, Known]
  simp only [List.mem_filter, isNamed, bne_iff_ne, and_assoc]

theorem mem_supertypeProblems_iff :
    problem ∈ supertypeProblems declarations.firstTables declarations.typeHierarchy table ↔
      ∃ ty ∈ table.supertypes, ty ∉ declarations.bundles.map (·.name) ∧ ¬ declarations.Known ty ∧
        problem = .unknownSupertype table.name ty := by
  have hunknown : ∀ ty, (!declarations.firstTables.contains ty &&
      !declarations.typeHierarchy.contains ty) = true ↔
      ty ∉ declarations.bundles.map (·.name) ∧ ¬ declarations.Known ty := by
    intro ty
    rw [Bool.and_eq_true, Bool.not_eq_true', Bool.not_eq_true', ← Bool.not_eq_true, ← Bool.not_eq_true,
      OrderedMap.contains_iff, mem_keys_firstTables, contains_typeHierarchy]
  simp only [supertypeProblems, List.mem_map, List.mem_filter, hunknown, and_assoc, eq_comm (b := problem)]

/-- Everything that is found, check by check. -/
theorem mem_problems_iff :
    problem ∈ declarations.problems ↔
      (∃ type ∈ declarations.types, type.name.path = "" ∧ problem = .namelessType) ∨
      (∃ table ∈ declarations.bundles, problem ∈ bundleProblems table) ∨
      (∃ name, List.Duplicate name (declarations.bundles.map (·.name)) ∧
        problem = .repeatedBundle name) ∨
      (∃ table ∈ declarations.firstTables.values, ∃ ty ∈ table.supertypes,
        ty ∉ declarations.bundles.map (·.name) ∧ ¬ declarations.Known ty ∧
          problem = .unknownSupertype table.name ty) ∨
      ∃ name ∈ declarations.firstTables.keys, ∃ bundle ∈
        Inheritance.circles declarations.firstTables [] name, problem = .circle bundle := by
  have hnameless : problem ∈ (declarations.types.filter (!isNamed ·)).map (fun _ => Problem.namelessType) ↔
      ∃ type ∈ declarations.types, type.name.path = "" ∧ problem = .namelessType := by
    simp only [List.mem_map, List.mem_filter, isNamed, Bool.not_eq_true', bne_eq_false_iff_eq, and_assoc,
      eq_comm (b := problem)]
  have hcircle : problem ∈ (declarations.firstTables.keys.flatMap
      (Inheritance.circles declarations.firstTables [])).map .circle ↔
      ∃ name ∈ declarations.firstTables.keys, ∃ bundle ∈
        Inheritance.circles declarations.firstTables [] name, problem = .circle bundle := by
    simp only [List.mem_map, List.mem_flatMap, eq_comm (b := problem)]
    exact ⟨fun ⟨bundle, ⟨name, hname, hmem⟩, h⟩ => ⟨name, hname, bundle, hmem, h⟩,
      fun ⟨name, hname, bundle, hmem, h⟩ => ⟨bundle, ⟨name, hname, hmem⟩, h⟩⟩
  rw [problems, List.mem_append, List.mem_append, List.mem_append, hnameless, mem_tableProblems_iff,
    List.mem_flatMap, hcircle]
  simp only [mem_supertypeProblems_iff, or_assoc]

/-! ### Manifests without problems -/

section

variable (hproblems : declarations.problems = [])
include hproblems

theorem not_mem_problems (problem : Problem) : problem ∉ declarations.problems := by
  rw [hproblems]
  exact List.not_mem_nil

theorem not_mem_bundleProblems (hmem : table ∈ declarations.bundles) (problem : Problem) :
    problem ∉ bundleProblems table := by
  intro hfault
  exact not_mem_problems hproblems _ (mem_problems_iff.2 (Or.inr (Or.inl ⟨table, hmem, hfault⟩)))

theorem nodup_names : (declarations.bundles.map (·.name)).Nodup := by
  refine List.nodup_iff_forall_not_duplicate.2 fun name hname => ?_
  exact not_mem_problems hproblems _ (mem_problems_iff.2 (Or.inr (Or.inr (Or.inl ⟨name, hname, rfl⟩))))

theorem circles_eq_nil {name : TypeName} (h : name ∈ declarations.firstTables.keys) :
    Inheritance.circles declarations.firstTables [] name = [] := by
  refine List.eq_nil_iff_forall_not_mem.2 fun bundle hcircle => ?_
  have hfound := mem_problems_iff.2 (Or.inr (Or.inr (Or.inr (Or.inr ⟨name, h, bundle, hcircle, rfl⟩))))
  exact not_mem_problems hproblems _ hfound

theorem get?_firstTables_of_mem {table : Bundle} (h : table ∈ declarations.bundles) :
    declarations.firstTables.get? table.name = some table := by
  obtain ⟨other, hother⟩ := OrderedMap.mem_keys_iff.1
    (mem_keys_firstTables.2 (List.mem_map_of_mem (f := (·.name)) h))
  obtain ⟨hmem, hname⟩ := mem_of_get?_firstTables hother
  rw [hother, List.inj_on_of_nodup_map (nodup_names hproblems) hmem h hname]

end

end Declarations

/-! ### The lines of a report -/

namespace Problem

theorem mem_messages_iff {problems : List Problem} {line : String} :
    line ∈ messages problems ↔ ∃ problem ∈ problems, problem.message = line := by
  rw [messages, List.mem_eraseDups, List.mem_map]

private theorem toList_message_circle (bundle : TypeName) :
    (circle bundle).message.toList =
      "Bundle ".toList ++ (bundle.path.toList ++ " inherits from itself".toList) := by
  have h : (circle bundle).message = "Bundle " ++ bundle.path ++ " inherits from itself" := rfl
  rw [h, String.toList_append, String.toList_append, List.append_assoc]

private theorem toList_message_unknownSupertype (bundle supertype : TypeName) :
    (unknownSupertype bundle supertype).message.toList =
      "Bundle ".toList ++ (bundle.path.toList ++ (" extends unknown type ".toList ++ supertype.path.toList)) := by
  have h : (unknownSupertype bundle supertype).message =
    "Bundle " ++ bundle.path ++ " extends unknown type " ++ supertype.path := rfl
  simp only [h, String.toList_append, List.append_assoc]

private theorem head?_append {opening : String} {first : Char} (h : opening.toList.head? = some first)
    (text : String) : (opening ++ text).toList.head? = some first := by
  rw [String.toList_append, List.head?_append, h, Option.some_or]

private theorem getLast?_append {ending : String} {last : Char} (h : ending.toList.getLast? = some last)
    (text : String) : (text ++ ending).toList.getLast? = some last := by
  rw [String.toList_append, List.getLast?_append, h, Option.some_or]

/-- The line about a circle says nothing else, unless there are blanks in the name of the bundle. -/
theorem eq_circle_of_message_eq {bundle : TypeName} (hblank : ' ' ∉ bundle.path.toList) {problem : Problem}
    (h : problem.message = (circle bundle).message) : problem = circle bundle := by
  have hchars := congrArg String.toList h
  -- Most lines begin or end otherwise.
  have hhead : ∀ {first : Char}, problem.message.toList.head? = some first → first = 'B' := by
    intro first hfirst
    rw [h, toList_message_circle] at hfirst
    exact (Option.some.inj hfirst).symm
  have hlast : ∀ {last : Char}, problem.message.toList.getLast? = some last → last = 'f' := by
    intro last hend
    rw [h] at hend
    exact (Option.some.inj ((getLast?_append rfl _).symm.trans hend)).symm
  cases problem with
  | namelessType => exact absurd (hhead rfl) (by decide)
  | bundleName other => exact absurd (hlast (getLast?_append rfl _)) (by decide)
  | enclosingName other enclosing =>
    exact absurd (hhead (head?_append (head?_append rfl _) _)) (by decide)
  | accessorName other accessor =>
    exact absurd (hhead (head?_append (head?_append rfl _) _)) (by decide)
  | repeatedAccessor other accessor =>
    exact absurd (hhead (head?_append (head?_append (head?_append rfl _) _) _)) (by decide)
  | repeatedBundle other => exact absurd (hlast (getLast?_append rfl _)) (by decide)
  | unknownSupertype other supertype =>
    rw [toList_message_circle, toList_message_unknownSupertype] at hchars
    rcases List.append_eq_append_iff.1 (List.append_cancel_left hchars) with
      ⟨between, hbundle, hrest⟩ | ⟨between, -, hrest⟩
    · cases between with
      | nil => simp at hrest
      | cons c rest =>
        have hc : ' ' = c := (List.cons.inj hrest).1
        rw [hbundle, ← hc] at hblank
        exact absurd (List.mem_append_right _ List.mem_cons_self) hblank
    · have hx : 'x' ∈ " inherits from itself".toList := by
        rw [hrest]
        exact List.mem_append_right _ (List.mem_append_left _ (by decide))
      exact absurd hx (by decide)
  | circle other =>
    rw [toList_message_circle, toList_message_circle] at hchars
    have hpath := String.toList_inj.1 (List.append_cancel_right (List.append_cancel_left hchars))
    exact congrArg (fun path => circle ⟨path⟩) hpath
end Problem

namespace Manifest

variable {declarations : Declarations} {text : String}

def reported (text : String) : List Problem :=
  match parse text with
  | .error ⟨.problems found, _⟩ => found
  | _ => []

section

variable (hread : Toml.read Declarations.decode text = .ok declarations)
include hread

theorem parse_of_read : parse text =
    (ofDeclarations declarations).mapError fun found => { cause := .problems found } := by
  rw [parse, hread]

theorem reported_of_read : reported text = declarations.problems := by
  rw [reported, parse_of_read hread, ofDeclarations]
  cases declarations.problems with
  | nil => rfl
  | cons first rest => rfl

theorem parse_eq_error (h : declarations.problems ≠ []) :
    parse text = .error { cause := .problems (reported text) } := by
  rw [reported_of_read hread, parse_of_read hread, ofDeclarations]
  split
  · rename_i hcons
    rw [hcons]
    rfl
  · rename_i hnil
    exact absurd hnil h

/-- A text that declares something is accepted or refused for its problems. -/
theorem exists_parse_iff : (∃ manifest, parse text = .ok manifest) ↔ declarations.problems = [] := by
  rw [parse_of_read hread, ofDeclarations]
  cases declarations.problems with
  | nil => exact ⟨fun _ => rfl, fun _ => ⟨_, rfl⟩⟩
  | cons first rest => simp [Except.mapError]

end

end Manifest

end BundleForge
