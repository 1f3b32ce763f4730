import BundleForge.Proofs.Manifest.Decoded
import BundleForge.Proofs.Manifest.Inheritance
import BundleForge.Proofs.Manifest.Problems
import BundleForge.Proofs.Relation
/-!
# Bundles that inherit from themselves

The walk upwards from a bundle keeps no record but of the bundles it came through. It ends all the same,
since these are declared and differ. Where it turns back there is a circle; and a bundle on a circle is
found when the walk starts from it, because a way around the circle can be cut until it leaves from no
bundle twice, and such a way the walk follows.
-/

namespace BundleForge

open Relation (ReflTransGen TransGen)

namespace Inheritance

variable {bundles : Bundles} {through : List TypeName} {name target : TypeName}

/-! ### The walk ends -/

/-- The walk upwards in one, with calls that may nest only so deep; it gathers the accessors and notes
where it turns back. There is no answer if the calls nest deeper. -/
def collect? (bundles : Bundles) : Nat → List TypeName → TypeName → Option (List Accessor × List TypeName)
  | 0, _, _ => none
  | depth + 1, through, name =>
    if name ∈ through then some ([], [name])
    else
      match bundles.get? name with
      | none => some ([], [])
      | some bundle => do
        let (inherited, turned) ← bundle.supertypes.foldlM (fun (gathered, turned) parent => do
          let (passedOn, more) ← collect? bundles depth (name :: through) parent
          return (inherit parent gathered passedOn, turned ++ more)) ([], [])
        return (bundle.accessors.foldl (fun gathered own => override own gathered) inherited, turned)

private theorem foldlM_collect? {walk : TypeName → Option (List Accessor × List TypeName)}
    {passedOn : TypeName → List Accessor} {turns : TypeName → List TypeName}
    (hwalk : ∀ parent, walk parent = some (passedOn parent, turns parent)) (parents : List TypeName)
    (gathered : List Accessor) (turned : List TypeName) :
    parents.foldlM (fun (gathered, turned) parent => do
        let (passed, more) ← walk parent
        return (inherit parent gathered passed, turned ++ more)) (gathered, turned) =
      some (parents.foldl (fun gathered parent => inherit parent gathered (passedOn parent)) gathered,
        turned ++ parents.flatMap turns) := by
  induction parents generalizing gathered turned with
  | nil => simp
  | cons parent rest ih =>
    rw [List.foldlM_cons, hwalk parent, List.foldl_cons, List.flatMap_cons, ← List.append_assoc]
    exact ih _ _

/-- The calls of the walk nest no deeper than there are bundles ahead, and one more. -/
theorem collect?_eq_some {depth : Nat} (h : (ahead bundles through).length < depth) :
    collect? bundles depth through name =
      some (accessors bundles through name, circles bundles through name) := by
  induction depth generalizing through name with
  | zero => exact absurd h (Nat.not_lt_zero _)
  | succ depth ih =>
    rw [collect?]
    by_cases hmem : name ∈ through
    · rw [if_pos hmem, accessors_of_mem hmem, circles_of_mem hmem]
    · rw [if_neg hmem]
      split
      · rename_i hnone
        rw [accessors_of_get?_eq_none hnone, circles_of_get?_eq_none hmem hnone]
      · rename_i table htable
        -- With one more bundle to remember there is one less ahead.
        have hless := length_ahead_lt (mem_keys_of_get? htable) hmem
        rw [foldlM_collect? fun parent => ih (Nat.lt_of_lt_of_le hless (Nat.le_of_lt_succ h)),
          accessors_of_get?_eq_some hmem htable, circles_of_get?_eq_some hmem htable]
        rfl

/-! ### Circles and where the walk turns back -/

/-- A declared bundle and a type it extends. -/
def Leads (bundles : Bundles) (bundle parent : TypeName) : Prop :=
  ∃ table, bundles.get? bundle = some table ∧ parent ∈ table.supertypes

/-- The walk turns back at bundles that it came through, or that it was led back to. -/
theorem leads_of_mem_circles (h : target ∈ circles bundles through name) :
    ReflTransGen (Leads bundles) name target ∧
      (target ∈ through ∨ TransGen (Leads bundles) target target) := by
  induction through, name using circles.induct bundles with
  | case1 through name hmem =>
    rw [circles_of_mem hmem, List.mem_singleton] at h
    rw [h]
    exact ⟨.refl, Or.inl hmem⟩
  | case2 through name hnew hnone =>
    rw [circles_of_get?_eq_none hnew hnone] at h
    exact absurd h List.not_mem_nil
  | case3 through name hnew table htable ih =>
    rw [circles_of_get?_eq_some hnew htable] at h
    obtain ⟨parent, hparent, hturn⟩ := List.mem_flatMap.1 h
    obtain ⟨hway, hback⟩ := ih parent hturn
    have hstep : Leads bundles name parent := ⟨table, htable, hparent⟩
    refine ⟨.head hstep hway, ?_⟩
    rcases hback with hmem | hcircle
    · rcases List.mem_cons.1 hmem with rfl | hthrough
      · exact Or.inr (.head' hstep hway)
      · exact Or.inl hthrough
    · exact Or.inr hcircle

/-- The walk turns back at a bundle it came through if any way leads there that leaves from none of
these. -/
theorem mem_circles_of_way (htarget : target ∈ through)
    (hway : ReflTransGen (Avoiding through (Leads bundles)) name target) :
    target ∈ circles bundles through name := by
  induction through, name using circles.induct bundles with
  | case1 through name hmem =>
    rcases hway.cases_head with rfl | ⟨next, hstep, -⟩
    · rw [circles_of_mem htarget]
      exact List.mem_singleton_self _
    · exact absurd hmem hstep.1
  | case2 through name hnew hnone =>
    rcases hway.cases_head with rfl | ⟨next, ⟨-, table, htable, -⟩, -⟩
    · exact absurd htarget hnew
    · rw [hnone] at htable
      exact absurd htable (Option.some_ne_none table).symm
  | case3 through name hnew table htable ih =>
    rcases hway.cases_head with rfl | ⟨next, hstep, hrest⟩
    · exact absurd htarget hnew
    · obtain ⟨parent, ⟨table', htable', hparent⟩, hrest⟩ := exists_last_visit hstep.2 hrest
      rw [htable] at htable'
      obtain rfl := Option.some.inj htable'
      rw [circles_of_get?_eq_some hnew htable]
      exact List.mem_flatMap.2
        ⟨parent, hparent, ih parent (List.mem_cons_of_mem _ htarget) hrest⟩

/-- Walks from all bundles turn back at those on a circle, and at no others. -/
theorem exists_mem_circles_iff :
    (∃ name ∈ bundles.keys, target ∈ circles bundles [] name) ↔ TransGen (Leads bundles) target target := by
  constructor
  · rintro ⟨name, -, hmem⟩
    exact (leads_of_mem_circles hmem).2.resolve_left List.not_mem_nil
  · intro hcircle
    obtain ⟨next, ⟨table, htable, hnext⟩, hrest⟩ := TransGen.head'_iff.1 hcircle
    have hway : ReflTransGen (Avoiding [] (Leads bundles)) next target :=
      ReflTransGen.mono (fun _ _ => avoiding_nil) _ _ hrest
    obtain ⟨parent, ⟨table', htable', hparent⟩, hway⟩ := exists_last_visit ⟨table, htable, hnext⟩ hway
    refine ⟨target, mem_keys_of_get? htable', ?_⟩
    rw [circles_of_get?_eq_some List.not_mem_nil htable']
    exact List.mem_flatMap.2 ⟨parent, hparent, mem_circles_of_way (List.mem_singleton_self _) hway⟩

end Inheritance

namespace Declarations

open Inheritance

variable {declarations : Declarations}

/-! ### The first table of each bundle -/

/-- The declarations with the first table of each bundle alone. -/
def firstOnly (declarations : Declarations) : Declarations :=
  { declarations with bundles := declarations.firstTables.values }

theorem mem_bundles_firstOnly {table : Bundle} :
    table ∈ declarations.firstOnly.bundles ↔ declarations.firstTables.get? table.name = some table := by
  rw [firstOnly, OrderedMap.mem_values_iff]
  constructor
  · rintro ⟨name, hname⟩
    rwa [(mem_of_get?_firstTables hname).2]
  · exact fun h => ⟨_, h⟩

theorem mem_names_firstOnly {name : TypeName} :
    name ∈ declarations.firstOnly.bundles.map (·.name) ↔ name ∈ declarations.bundles.map (·.name) := by
  rw [firstOnly, names_firstTables, mem_keys_firstTables]

theorem extends_firstOnly_iff {bundle parent : TypeName} :
    declarations.firstOnly.Extends bundle parent ↔
      Leads declarations.firstTables bundle parent ∧ parent ∈ declarations.bundles.map (·.name) := by
  rw [Extends, Leads, mem_names_firstOnly]
  constructor
  · rintro ⟨table, hmem, rfl, hparent, hdeclared⟩
    exact ⟨⟨table, mem_bundles_firstOnly.1 hmem, hparent⟩, hdeclared⟩
  · rintro ⟨⟨table, htable, hparent⟩, hdeclared⟩
    obtain ⟨-, rfl⟩ := mem_of_get?_firstTables htable
    exact ⟨table, mem_bundles_firstOnly.2 htable, rfl, hparent, hdeclared⟩

/-- On the way to a declared bundle all are declared, as each but the last has a table. -/
private theorem above_firstOnly {bundle above : TypeName} (hdeclared : above ∈ declarations.bundles.map (·.name))
    (h : TransGen (Leads declarations.firstTables) bundle above) :
    declarations.firstOnly.Above bundle above := by
  induction h using TransGen.head_induction_on with
  | single hstep => exact .single (extends_firstOnly_iff.2 ⟨hstep, hdeclared⟩)
  | head hstep hrest ih =>
    obtain ⟨next, ⟨table, htable, -⟩, -⟩ := TransGen.head'_iff.1 hrest
    exact .head (extends_firstOnly_iff.2 ⟨hstep, mem_keys_firstTables.1 (mem_keys_of_get? htable)⟩) ih

theorem circle_firstOnly_iff {bundle : TypeName} :
    declarations.firstOnly.Above bundle bundle ↔ TransGen (Leads declarations.firstTables) bundle bundle := by
  constructor
  · exact fun h => TransGen.mono (fun _ _ hextends => (extends_firstOnly_iff.1 hextends).1) _ _ h
  · intro h
    obtain ⟨next, ⟨table, htable, -⟩, -⟩ := TransGen.head'_iff.1 h
    exact above_firstOnly (mem_keys_firstTables.1 (mem_keys_of_get? htable)) h

/-- The circles that are found are those among first tables. -/
theorem circle_mem_problems_iff {bundle : TypeName} :
    .circle bundle ∈ declarations.problems ↔ declarations.firstOnly.Above bundle bundle := by
  rw [circle_firstOnly_iff, ← exists_mem_circles_iff, mem_problems_iff]
  simp [mem_bundleProblems_iff, mem_accessorProblems_iff]

private theorem values_foldl_tables {tables : List Bundle} {bundles : Bundles}
    (hnodup : (tables.map (·.name)).Nodup) (hnew : ∀ table ∈ tables, table.name ∉ bundles.keys) :
    (tables.foldl (fun bundles table =>
      if bundles.contains table.name then bundles else bundles.insert table.name table) bundles).values =
      bundles.values ++ tables := by
  induction tables generalizing bundles with
  | nil => rw [List.foldl_nil, List.append_nil]
  | cons table rest ih =>
    rw [List.map_cons, List.nodup_cons] at hnodup
    rw [List.forall_mem_cons] at hnew
    have hrest : ∀ other ∈ rest, other.name ∉ (bundles.insert table.name table).keys := by
      intro other hother
      rw [OrderedMap.keys_insert, if_neg hnew.1, List.mem_append, List.mem_singleton, not_or]
      exact ⟨hnew.2 other hother, fun hsame => hnodup.1 (hsame ▸ List.mem_map_of_mem (f := (·.name)) hother)⟩
    rw [List.foldl_cons, if_neg (mt OrderedMap.contains_iff.1 hnew.1), ih hnodup.2 hrest,
      OrderedMap.values_insert_of_not_mem hnew.1, List.append_assoc, List.singleton_append]

theorem firstOnly_eq (h : (declarations.bundles.map (·.name)).Nodup) : declarations.firstOnly = declarations := by
  have hvalues : declarations.firstTables.values = declarations.bundles :=
    values_foldl_tables h fun _ _ => List.not_mem_nil
  rw [firstOnly, hvalues]

end Declarations

/-! ### Reports -/

namespace Manifest

/-- What parsing a text finds out about circles. Where several tables have the name of one bundle only the first of
them counts, both for the walk and for what is above what. -/
structure FindsCircles (declarations : Declarations) (text : String) : Prop where
  /-- The walk from any bundle ends; its calls nest no deeper than there are bundles, and one more. -/
  ends : ∀ bundle, Inheritance.collect? declarations.firstTables
    (declarations.firstTables.keys.length + 1) [] bundle =
      some (declarations.accessorsOf bundle, Inheritance.circles declarations.firstTables [] bundle)
  reported_iff : ∀ bundle, .circle bundle ∈ reported text ↔ declarations.firstOnly.Above bundle bundle
  line_iff : ∀ bundle : TypeName, ' ' ∉ bundle.path.toList →
    ((Problem.circle bundle).message ∈ Problem.messages (reported text) ↔
      declarations.firstOnly.Above bundle bundle)
  /-- The tables that do not count are reported as repeated. -/
  firstOnly_eq : (declarations.bundles.map (·.name)).Nodup → declarations.firstOnly = declarations

/-- A bundle is reported to inherit from itself if and only if it is on a circle of bundles, going by the first table
of each. -/
theorem findsCircles_of_read {declarations : Declarations} {text : String}
    (hread : Toml.read Declarations.decode text = .ok declarations) : FindsCircles declarations text := by
  have hreported : ∀ bundle, .circle bundle ∈ reported text ↔ declarations.firstOnly.Above bundle bundle := by
    intro bundle
    rw [reported_of_read hread]
    exact Declarations.circle_mem_problems_iff
  constructor
  case ends =>
    intro bundle
    refine Inheritance.collect?_eq_some (Nat.lt_succ_of_le ?_)
    exact List.length_filter_le _ _
  case reported_iff => exact hreported
  case line_iff =>
    intro bundle hblank
    rw [← hreported, Problem.mem_messages_iff]
    constructor
    · rintro ⟨problem, hmem, hline⟩
      rwa [← Problem.eq_circle_of_message_eq hblank hline]
    · exact fun hmem => ⟨_, hmem, rfl⟩
  case firstOnly_eq => exact Declarations.firstOnly_eq

/-- Two circles with a bundle in common, and a bundle that leads to them. -/
def hubText : String :=
"[[bundles]]
name = \"crate::Left\"
extends = [\"crate::Hub\"]

[[bundles]]
name = \"crate::Hub\"
extends = [\"crate::Left\", \"crate::Right\"]

[[bundles]]
name = \"crate::Right\"
extends = [\"crate::Hub\"]

[[bundles]]
name = \"crate::Spoke\"
extends = [\"crate::Left\"]
"

def hubTables : Declarations where
  types := []
  bundles := [
    { name := ⟨"crate::Left"⟩, supertypes := [⟨"crate::Hub"⟩] },
    { name := ⟨"crate::Hub"⟩, supertypes := [⟨"crate::Left"⟩, ⟨"crate::Right"⟩] },
    { name := ⟨"crate::Right"⟩, supertypes := [⟨"crate::Hub"⟩] },
    { name := ⟨"crate::Spoke"⟩, supertypes := [⟨"crate::Left"⟩] }]

set_option maxRecDepth 2000 in
private theorem read_hubText : Toml.read Declarations.decode hubText = .ok hubTables := by
  refine Toml.read_of_lines rfl ?_ ?_ <;> decide +kernel

theorem findsCircles_hub :
    FindsCircles hubTables hubText ∧
      (∀ bundle ∈ ["crate::Left", "crate::Hub", "crate::Right"],
        hubTables.firstOnly.Above ⟨bundle⟩ ⟨bundle⟩) ∧
      ¬ hubTables.firstOnly.Above ⟨"crate::Spoke"⟩ ⟨"crate::Spoke"⟩ := by
  have hfinds := findsCircles_of_read read_hubText
  simp only [← hfinds.reported_iff, reported_of_read read_hubText]
  exact ⟨hfinds, by decide +kernel⟩

end Manifest

end BundleForge
