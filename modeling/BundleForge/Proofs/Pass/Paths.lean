import BundleForge.Proofs.Implementation.Paths
import BundleForge.Proofs.Pass.Nested
/-!
# What the paths in a committed module stand for

The module of a pass names declared types in the headers of its conformances, as results of methods, holders
and initializers, and in the types of slots. All of these are written from inside. The path under which a
nested bundle is constructed is written as it is declared, although it stands in the same module.
-/

namespace BundleForge.Pass

open Implementation (cell emptyCell slotField slotType stands_pathInside)

/-- The type of a slot for values of the type that a path stands for. -/
def boxed (path : String) : String := "::std::boxed::Box<dyn " ++ path ++ " + Send + Sync>"

/-- The bundle itself and the declared bundles above it, and the bundles its accessors belong to. -/
def ownersOf (plan : Plan) (bundle : Bundle) : List TypeName :=
  bundle.name :: implemented plan bundle ++ bundle.accessors.map fun accessor =>
    accessor.owner.getD bundle.name

/-- Every path that a module has for a declared type stands for that type. The constructor of a nested bundle
keeps its meaning only if its path does not depend on the module, or is that of the implementing type. -/
structure PathsStand (plan : Plan) (bundle : Bundle) (locale : Option String)
    (implementation : Implementation) : Prop where
  simpleName : implementation.simpleName = bundle.implementation locale
  headers : ∀ owner ∈ bundle.name :: implemented plan bundle,
    ∃ conformance ∈ implementation.conformances, implementation.Stands owner conformance.bundle
  conformances : ∀ conformance ∈ implementation.conformances, ∃ owner ∈ ownersOf plan bundle,
    implementation.Stands owner conformance.bundle ∧
    ∀ method ∈ conformance.methods, ∃ accessor ∈ bundle.accessors, accessor.name = method.name ∧
      accessor.owner.getD bundle.name = owner ∧ implementation.Stands accessor.kind method.result
  holders : ∀ holder ∈ implementation.holders, ∃ accessor ∈ bundle.accessors,
    accessor.name = holder.accessor ∧ implementation.Stands accessor.kind holder.result
  initializers : ∀ initializer ∈ implementation.initializers, ∃ accessor ∈ bundle.accessors,
    accessor.name = initializer.accessor ∧ implementation.Stands accessor.kind initializer.result ∧
    initializer.slotType = boxed initializer.result ∧
    ⟨initializer.slot, cell initializer.slotType, emptyCell⟩ ∈ implementation.statics
  constructors : (bundle.accessors.map (·.name)).Nodup → ∀ id served accessor nested,
    ⟨⟨id, .nested⟩, served⟩ ∈ tasksOf plan bundle → accessor ∈ served →
    plan.bundles.get? accessor.kind = some nested →
      (∃ holder slot, implementation.Wires accessor (accessor.owner.getD bundle.name) holder slot
        (nested.implementationPath (accessor.effectiveLocale locale) ++ "::new()")) ∧
      ∀ path : TypePath, nested.name.path = path.text →
        ∀ hname : IsName (nested.implementation (accessor.effectiveLocale locale)),
          (implementation.Keeps (nested.implementationPath (accessor.effectiveLocale locale)) ↔
            (path.sibling _ hname).SameInside implementation.simpleName)

variable {plan : Plan} {bundle : Bundle} {locale : Option String} {σ : Type} {world : World σ}

/-- The code of a module is that of accessors of its bundle, each with its slot among the statics. -/
theorem accessor_of_code {code : AccessorCode}
    (h : code ∈ (assembly plan bundle locale (opening world) (tasksOf plan bundle)).accessors) :
    code.accessor ∈ bundle.accessors ∧
      (⟨code.slot, cell (slotType code.accessor.kind), emptyCell⟩ : Member) ∈
        (moduleOf plan bundle locale world).statics := by
  have hpair := mem_of_mem_joinCode h
  exact ⟨(List.of_mem_zip hpair).1, static_of_slot hpair⟩

variable [Sink σ]

/-- A pass that succeeds commits a module in which all paths of declared types stand for these types. -/
theorem pathsStand_of_generated {type : GeneratedType}
    (hrun : (run plan bundle locale world).result = .generated type) :
    Commits plan bundle locale world (moduleOf plan bundle locale world).source ∧
      PathsStand plan bundle locale (moduleOf plan bundle locale world) := by
  refine ⟨commits_assembly hrun, ?_⟩
  refine
    { simpleName := rfl
      headers := fun owner howner => ⟨_, List.mem_map_of_mem ?_, stands_pathInside _ _⟩
      conformances := fun conformance hconformance => ?_
      holders := fun holder hholder => ?_
      initializers := fun initializer hinitializer => ?_
      constructors := fun hnames id served accessor nested htask hserved hnested => ?_ }
  · exact List.mem_eraseDups.2 (List.mem_append_left _ howner)
  · obtain ⟨owner, howner, rfl⟩ := List.mem_map.1 hconformance
    refine ⟨owner, ?_, stands_pathInside _ _, fun method hmethod => ?_⟩
    · rcases List.mem_append.1 (List.mem_eraseDups.1 howner) with habove | hcodes
      · exact List.mem_append_left _ habove
      · obtain ⟨code, hcode, rfl⟩ := List.mem_map.1 hcodes
        have haccessor := (accessor_of_code hcode).1
        exact List.mem_append_right _ (List.mem_map_of_mem haccessor)
    · obtain ⟨entry, hentry, rfl⟩ := List.mem_map.1 hmethod
      obtain ⟨hheld, howned⟩ := List.mem_filter.1 hentry
      have haccessor := (accessor_of_code (List.of_mem_zip hheld).1).1
      exact ⟨entry.1.accessor, haccessor, rfl, of_decide_eq_true howned, stands_pathInside _ _⟩
  · obtain ⟨entry, hentry, rfl⟩ := List.mem_map.1 hholder
    have haccessor := (accessor_of_code (List.of_mem_zip hentry).1).1
    exact ⟨entry.1.accessor, haccessor, rfl, stands_pathInside _ _⟩
  · obtain ⟨code, hcode, rfl⟩ := List.mem_map.1 hinitializer
    obtain ⟨haccessor, hslot⟩ := accessor_of_code hcode
    exact ⟨code.accessor, haccessor, rfl, stands_pathInside _ _, rfl, hslot⟩
  · have hshows := shows_construction hnames hrun htask hserved
    rw [construction_of_get? hnested] at hshows
    refine ⟨hshows.wires, fun path hpath hname => ?_⟩
    have htext : nested.implementationPath (accessor.effectiveLocale locale) = _ :=
      TypePath.qualify_modulePath hpath hname
    rw [htext]
    exact Implementation.keeps_iff

def flagsAccessor : Accessor where
  name := "flags"
  kind := ⟨"Flags"⟩

/-- A bundle with another one of the same module in it. -/
def icons : Bundle where
  name := ⟨"Icons"⟩
  accessors := [flagsAccessor]

def flags : Bundle where
  name := ⟨"Flags"⟩

def iconsPlan : Plan where
  hierarchy := .builtin
  bundles := (OrderedMap.empty.insert icons.name icons).insert flags.name flags
  registry := Registry.standard.register flags.name .bundle

def flagsPath : TypePath := ⟨.plain, "Flags", [], by decide⟩

def iconsWorld : World MemorySink where
  files := .empty
  finder := {}
  sink := {}

private theorem tasks_icons : tasksOf iconsPlan icons = [⟨.bundle, [flagsAccessor]⟩] := rfl

/-- The nested bundle is constructed under a name that means something else inside the module. -/
theorem pathsStand_icons :
    (run iconsPlan icons none iconsWorld).result =
      .generated ⟨⟨"Icons"⟩, none, "IconsImpl", none⟩ ∧
    PathsStand iconsPlan icons none (moduleOf iconsPlan icons none iconsWorld) ∧
    Shows iconsPlan icons none iconsWorld flagsAccessor "FlagsImpl::new()" ∧
    ¬ (moduleOf iconsPlan icons none iconsWorld).Keeps "FlagsImpl" := by
  have hrun : (run iconsPlan icons none iconsWorld).result =
      .generated ⟨⟨"Icons"⟩, none, "IconsImpl", none⟩ := by decide +kernel
  obtain ⟨hcommits, hstand⟩ := pathsStand_of_generated hrun
  have htask : ⟨.bundle, [flagsAccessor]⟩ ∈ tasksOf iconsPlan icons := by
    rw [tasks_icons]
    exact List.mem_cons_self
  have hnested : iconsPlan.bundles.get? flagsAccessor.kind = some flags := by decide +kernel
  obtain ⟨hwires, hkeeps⟩ :=
    hstand.constructors (by decide) _ _ _ _ htask List.mem_cons_self hnested
  have hpath : flags.implementationPath (flagsAccessor.effectiveLocale none) = "FlagsImpl" := by
    decide +kernel
  rw [hpath] at hwires hkeeps
  refine ⟨hrun, hstand, ⟨hcommits, hwires⟩, ?_⟩
  rw [hkeeps flagsPath (by decide +kernel) (by decide +kernel), hstand.simpleName]
  decide +kernel

end BundleForge.Pass
