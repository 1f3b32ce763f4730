import BundleForge.Proofs.Manifest.Accepted
import BundleForge.Proofs.Pass.Nested
import BundleForge.Proofs.Run.Complete
import BundleForge.Proofs.Run.Skips
/-!
# Nested bundles in a run

Generated code constructs a nested bundle under the path that the naming rule gives for it and for the locale
of the accessor. A run that succeeds has generated the types of all its passes, so the path names a generated
type exactly if it is that of some declared bundle for some locale of the run. An accessor with a locale of
its own may name a type that no pass of the run generates.
-/

namespace BundleForge

namespace Run

section

variable {σ : Type} [Sink σ] {plan : Plan} {world : World σ} {passes : List (Bundle × Option String)}

def requests (plan : Plan) (world : World σ) (passes : List (Bundle × Option String)) :
    List (Request σ) :=
  (turns plan world passes).map fun turn => ⟨turn, plan⟩

theorem successive_requests (plan : Plan) (world : World σ) (passes : List (Bundle × Option String)) :
    Successive world.sink (requests plan world passes) (after plan world passes).sink := by
  induction passes generalizing world with
  | nil => exact .nil world.sink
  | cons pass rest ih =>
    let request : Request σ := ⟨⟨pass.1, pass.2, world⟩, plan⟩
    have hrest : Successive request.pass.world.sink (requests plan request.pass.world rest)
        (after plan request.pass.world rest).sink := ih _
    exact .cons hrest

/-- A type of this name is generated in a run. -/
def Generates (plan : Plan) (world : World σ) (passes : List (Bundle × Option String))
    (name : String) : Prop :=
  ∃ turn ∈ turns plan world passes, Request.Generated ⟨turn, plan⟩ name

variable {κ : Type} [DecidableEq κ] {register : Sink.Register σ κ}

theorem exists_before {turn : Turn σ} (hturn : turn ∈ turns plan world passes) :
    ∃ before, Successive world.sink before turn.world.sink ∧
      ∀ request ∈ before, request.plan = plan ∧ request.toTurn ∈ turns plan world passes := by
  have hsuccessive := successive_requests plan world passes
  have hmem : ⟨turn, plan⟩ ∈ requests plan world passes := List.mem_map_of_mem hturn
  obtain ⟨before, rest, happend⟩ := List.mem_iff_append.1 hmem
  rw [happend] at hsuccessive
  refine ⟨before, hsuccessive.split.1, fun request hrequest => ?_⟩
  have hall : request ∈ requests plan world passes := by
    rw [happend]
    exact List.mem_append_left _ hrequest
  obtain ⟨other, hother, rfl⟩ := List.mem_map.1 hall
  exact ⟨rfl, hother⟩

/-- Where no pass fails, the names that are generated are those of all passes. -/
theorem generates_iff (hfresh : register.Fresh world.sink)
    (hfine : ∀ turn ∈ turns plan world passes, turn.Succeeds plan) {name : String} :
    Generates plan world passes name ↔
      ∃ pass ∈ passes, pass.1.implementationPath pass.2 = name := by
  have hsubjects := subjects_turns plan world passes
  constructor
  · rintro ⟨turn, hturn, hgenerated⟩
    have hmem : (turn.bundle, turn.locale) ∈ passes := by
      rw [← hsubjects]
      exact List.mem_map_of_mem hturn
    obtain ⟨before, hbefore, -⟩ := exists_before hturn
    have hvalid := (hbefore.name? register hfresh.valid).1
    exact ⟨_, hmem, (hgenerated.free register hvalid).1.symm⟩
  · rintro ⟨pass, hpass, rfl⟩
    rw [← hsubjects] at hpass
    obtain ⟨turn, hturn, rfl⟩ := List.mem_map.1 hpass
    obtain ⟨before, hbefore, hturns⟩ := exists_before hturn
    let request : Request σ := ⟨turn, plan⟩
    cases hresult : request.pass.result with
    | failed failed => exact absurd hresult (hfine turn hturn failed)
    | generated type =>
      have hvalid := (hbefore.name? register hfresh.valid).1
      have hgenerated : request.Generated type.qualifiedName := ⟨type, hresult, rfl⟩
      have hname : type.qualifiedName = turn.claim.qualifiedName :=
        (hgenerated.free register hvalid).1
      exact ⟨turn, hturn, type, hresult, hname⟩
    | skipped =>
      -- The owner of the name has not failed, so it has generated the type.
      obtain ⟨owner, howner, hname⟩ := (hbefore.skipped_iff_owned register hfresh).1 hresult
      obtain ⟨hplan, howned⟩ := hturns owner (List.mem_of_find?_eq_some howner)
      have hnever : ¬ owner.Failed := by
        rintro ⟨failed, hfailed⟩
        rw [Request.pass, hplan] at hfailed
        exact hfine owner.toTurn howned failed hfailed
      obtain ⟨earlier, hearlier, -, hgenerated⟩ :=
        (hbefore.generated_iff register hfresh howner).2 hnever
      obtain ⟨hsame, hmem⟩ := hturns earlier hearlier
      subst hsame
      rw [hname] at hgenerated
      exact ⟨earlier.toTurn, hmem, hgenerated⟩

theorem generates_passes_iff {configured : List String} (hfresh : register.Fresh world.sink)
    (hfine : ∀ turn ∈ turns plan world (Run.passes plan.bundles configured), turn.Succeeds plan)
    (name : String) :
    Generates plan world (Run.passes plan.bundles configured) name ↔
      ∃ bundle ∈ plan.bundles.values, ∃ locale ∈ locales configured,
        bundle.implementationPath locale = name := by
  rw [generates_iff hfresh hfine]
  constructor
  · rintro ⟨pass, hmem, hpath⟩
    obtain ⟨hbundle, hlocale⟩ := mem_passes.1 hmem
    exact ⟨pass.1, hbundle, pass.2, hlocale, hpath⟩
  · rintro ⟨bundle, hbundle, locale, hlocale, hpath⟩
    exact ⟨(bundle, locale), mem_passes.2 ⟨hbundle, hlocale⟩, hpath⟩

/-- The value of an accessor is constructed under a path that names a type which the run has generated
exactly if some pass of the run has this path. The locale of the pass, and any locale of the run, lead
to such a path. -/
structure Constructs (plan : Plan) (configured : List String) (world : World σ) (turn : Turn σ)
    (accessor : Accessor) (nested : Bundle) : Prop where
  shows : Pass.Shows plan turn.bundle turn.locale turn.world accessor
    (nested.implementationPath (accessor.effectiveLocale turn.locale) ++ "::new()")
  generates_iff : Generates plan world (Run.passes plan.bundles configured)
      (nested.implementationPath (accessor.effectiveLocale turn.locale)) ↔
    ∃ bundle ∈ plan.bundles.values, ∃ locale ∈ locales configured,
      bundle.implementationPath locale =
        nested.implementationPath (accessor.effectiveLocale turn.locale)
  generates : (∀ locale, accessor.locale = some locale → locale ∈ configured) →
    Generates plan world (Run.passes plan.bundles configured)
      (nested.implementationPath (accessor.effectiveLocale turn.locale))

theorem constructs_of_isSuccess {configured : List String} {id : GeneratorId}
    {served : List Accessor} {accessor : Accessor} {nested : Bundle} {turn : Turn σ} {type : GeneratedType}
    (hfresh : register.Fresh world.sink)
    (hsuccess : (all plan configured world).1.isSuccess = true)
    (hnames : ∀ bundle ∈ plan.bundles.values, (bundle.accessors.map (·.name)).Nodup)
    (hturn : turn ∈ turns plan world (Run.passes plan.bundles configured))
    (hgenerated : (turn.pass plan).result = .generated type)
    (htask : ⟨⟨id, .nested⟩, served⟩ ∈ Pass.tasksOf plan turn.bundle) (hserved : accessor ∈ served)
    (hnested : plan.bundles.get? accessor.kind = some nested) :
    Constructs plan configured world turn accessor nested := by
  have hfine := fine_of_isSuccess hsuccess
  have hpass : (turn.bundle, turn.locale) ∈ Run.passes plan.bundles configured := by
    rw [← subjects_turns plan world (Run.passes plan.bundles configured)]
    exact List.mem_map_of_mem hturn
  obtain ⟨hbundle, hlocale⟩ := mem_passes.1 hpass
  have hgenerates := generates_passes_iff hfresh hfine
    (nested.implementationPath (accessor.effectiveLocale turn.locale))
  refine ⟨?_, hgenerates, fun hconfigured => ?_⟩
  · have hshows := Pass.shows_construction (hnames turn.bundle hbundle) hgenerated htask hserved
    rwa [Pass.construction_of_get? hnested] at hshows
  · rw [hgenerates]
    refine ⟨nested, OrderedMap.mem_values_iff.2 ⟨_, hnested⟩, accessor.effectiveLocale turn.locale, ?_, rfl⟩
    cases hown : accessor.locale with
    | none =>
      rw [Accessor.effectiveLocale, hown]
      exact hlocale
    | some locale =>
      rw [Accessor.effectiveLocale, hown]
      exact List.mem_cons_of_mem _ (List.mem_map_of_mem (hconfigured locale hown))

end

/-- Every nested bundle of a generated type is constructed under the path of its implementation. -/
def NestedConstructed {σ : Type} [Sink σ] (plan : Plan) (configured : List String) (world : World σ) :
    Prop :=
  ∀ turn ∈ turns plan world (Run.passes plan.bundles configured),
    ∀ type, (turn.pass plan).result = .generated type →
      ∀ id served, ⟨⟨id, .nested⟩, served⟩ ∈ Pass.tasksOf plan turn.bundle → ∀ accessor ∈ served,
        ∀ nested, plan.bundles.get? accessor.kind = some nested →
          Constructs plan configured world turn accessor nested

/-- A successful run over an accepted manifest constructs each nested bundle under a path of its own naming
rule; the path is that of a generated type exactly if a bundle of the run has it for a locale of the run. -/
theorem nestedConstructed_of_isSuccess {text : String} {manifest : Manifest} {plan : Plan}
    (hparse : Manifest.parse text = .ok manifest) (hplan : plan.bundles = manifest.bundles)
    (configured : List String) (files : FileSystem) (finder : Finder) (outDir : Path) :
    ((all plan configured ⟨files, finder, ({} : MemorySink)⟩).1.isSuccess = true →
      NestedConstructed plan configured ⟨files, finder, ({} : MemorySink)⟩) ∧
    ((all plan configured ⟨files, finder, (⟨outDir, .empty⟩ : FileSink)⟩).1.isSuccess = true →
      NestedConstructed plan configured ⟨files, finder, (⟨outDir, .empty⟩ : FileSink)⟩) := by
  obtain ⟨declarations, haccepted⟩ := Manifest.exists_declarations_of_parse hparse
  have hnames : ∀ bundle ∈ plan.bundles.values, (bundle.accessors.map (·.name)).Nodup := by
    intro bundle hbundle
    rw [hplan] at hbundle
    obtain ⟨table, -, hsame⟩ := Manifest.exists_table_of_mem haccepted hbundle
    rw [congrArg Bundle.accessors hsame]
    exact declarations.nodup_names_accessorsOf bundle.name
  constructor
  · intro hsuccess turn hturn type hgenerated id served htask accessor hserved nested hnested
    exact constructs_of_isSuccess MemorySink.fresh_register hsuccess hnames hturn hgenerated htask
      hserved hnested
  · intro hsuccess turn hturn type hgenerated id served htask accessor hserved nested hnested
    exact constructs_of_isSuccess (FileSink.fresh_register outDir) hsuccess hnames hturn hgenerated
      htask hserved hnested

/-- A bundle with an accessor for another one in a locale of its own. -/
def galleryText : String :=
"[[bundles]]
name = \"crate::Gallery\"
accessors = [ \x7b name = \"pictures\", kind = \"crate::Pictures\", locale = \"de\" \x7d ]

[[bundles]]
name = \"crate::Pictures\"
"

def pictures : Bundle where
  name := ⟨"crate::Pictures"⟩

def germanPictures : Accessor where
  name := "pictures"
  kind := ⟨"crate::Pictures"⟩
  locale := some "de"

def gallery : Bundle where
  name := ⟨"crate::Gallery"⟩
  accessors := [germanPictures]

@[irreducible]
def galleryManifest : Manifest :=
  (Manifest.ofDeclarations ⟨[], [gallery, pictures]⟩).toOption.getD ⟨.builtin, .empty⟩

set_option maxRecDepth 1000 in
private theorem parse_galleryText : Manifest.parse galleryText = .ok galleryManifest := by
  have hread : Toml.read Declarations.decode galleryText = .ok ⟨[], [gallery, pictures]⟩ := by
    refine Toml.read_of_lines rfl ?_ ?_ <;> decide +kernel
  unfold galleryManifest
  exact Manifest.parse_of_isSome hread (by decide +kernel) _

/-- The plan for it, with a registration of its own for the type of the accessor. -/
def galleryPlan : Plan where
  hierarchy := galleryManifest.hierarchy
  bundles := galleryManifest.bundles
  registry := Registry.standard.register ⟨"crate::Pictures"⟩ .bundle

private theorem tasks_gallery :
    Pass.tasksOf galleryPlan gallery = [⟨.bundle, [germanPictures]⟩] := rfl

theorem constructs_gallery {σ : Type} [Sink σ] {world : World σ} {type : GeneratedType}
    (hconstructed : NestedConstructed galleryPlan [] world)
    (hrun : (Pass.run galleryPlan gallery none world).result = .generated type) :
    Pass.Shows galleryPlan gallery none world germanPictures "crate::Pictures_de_Impl::new()" ∧
      ¬ Generates galleryPlan world (passes galleryPlan.bundles []) "crate::Pictures_de_Impl" := by
  have hpasses : passes galleryPlan.bundles [] = [(gallery, none), (pictures, none)] := by
    decide +kernel
  have hturn : (⟨gallery, none, world⟩ : Turn σ) ∈
      turns galleryPlan world (passes galleryPlan.bundles []) := by
    rw [hpasses]
    exact List.mem_cons_self
  have hnested : galleryPlan.bundles.get? ⟨"crate::Pictures"⟩ = some pictures := by decide +kernel
  have htask : ⟨.bundle, [germanPictures]⟩ ∈ Pass.tasksOf galleryPlan gallery := by
    rw [tasks_gallery]
    exact List.mem_cons_self
  have hconstructs := hconstructed _ hturn type hrun _ _ htask _ List.mem_cons_self _ hnested
  have hpath : pictures.implementationPath (germanPictures.effectiveLocale none) =
      "crate::Pictures_de_Impl" := by decide +kernel
  have hnobody : ¬ ∃ bundle ∈ galleryPlan.bundles.values, ∃ locale ∈ locales [],
      bundle.implementationPath locale = "crate::Pictures_de_Impl" := by decide +kernel
  constructor
  · have hshows := hconstructs.shows
    rw [hpath] at hshows
    exact hshows
  · have hgenerates := hconstructs.generates_iff
    rw [hpath] at hgenerates
    exact fun h => hnobody (hgenerates.1 h)

/-- The run succeeds, and the gallery constructs a type that was not generated. -/
theorem nestedConstructed_gallery :
    ((all galleryPlan [] ⟨.empty, {}, ({} : MemorySink)⟩).1.isSuccess = true ∧
      Pass.Shows galleryPlan gallery none ⟨.empty, {}, ({} : MemorySink)⟩ germanPictures
        "crate::Pictures_de_Impl::new()" ∧
      ¬ Generates galleryPlan ⟨.empty, {}, ({} : MemorySink)⟩ (passes galleryPlan.bundles [])
        "crate::Pictures_de_Impl") ∧
    (all galleryPlan [] ⟨.empty, {}, (⟨⟨"/out"⟩, .empty⟩ : FileSink)⟩).1.isSuccess = true ∧
      Pass.Shows galleryPlan gallery none ⟨.empty, {}, (⟨⟨"/out"⟩, .empty⟩ : FileSink)⟩ germanPictures
        "crate::Pictures_de_Impl::new()" ∧
      ¬ Generates galleryPlan ⟨.empty, {}, (⟨⟨"/out"⟩, .empty⟩ : FileSink)⟩
        (passes galleryPlan.bundles []) "crate::Pictures_de_Impl" := by
  have hplan : galleryPlan.bundles = galleryManifest.bundles := rfl
  obtain ⟨hmemory, hfiles⟩ :=
    nestedConstructed_of_isSuccess parse_galleryText hplan [] .empty {} ⟨"/out"⟩
  have hmemorySuccess : (all galleryPlan [] ⟨.empty, {}, ({} : MemorySink)⟩).1.isSuccess = true := by
    decide +kernel
  have hfilesSuccess :
      (all galleryPlan [] ⟨.empty, {}, (⟨⟨"/out"⟩, .empty⟩ : FileSink)⟩).1.isSuccess = true := by
    decide +kernel
  have hmemoryRun : (Pass.run galleryPlan gallery none ⟨.empty, {}, ({} : MemorySink)⟩).result =
      .generated ⟨⟨"crate::Gallery"⟩, none, "crate::GalleryImpl", none⟩ := by decide +kernel
  have hfilesRun : (Pass.run galleryPlan gallery none
      ⟨.empty, {}, (⟨⟨"/out"⟩, .empty⟩ : FileSink)⟩).result = .generated
        ⟨⟨"crate::Gallery"⟩, none, "crate::GalleryImpl", some ⟨"/out/gallery_impl.rs"⟩⟩ := by
    decide +kernel
  exact ⟨⟨hmemorySuccess, constructs_gallery (hmemory hmemorySuccess) hmemoryRun⟩, hfilesSuccess,
    constructs_gallery (hfiles hfilesSuccess) hfilesRun⟩

end Run

end BundleForge
