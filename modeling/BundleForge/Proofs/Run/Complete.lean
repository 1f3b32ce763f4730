import BundleForge.Proofs.Manifest.Accepted
import BundleForge.Proofs.Run.Files
import BundleForge.Proofs.Run.Memory
import Mathlib.Data.List.ProdSigma
/-!
# Complete runs

A run is complete if every declared bundle is kept for every locale: its own pass committed a source, and
that is what the sink holds under its name. A pass that is skipped reports no failure, so a run may succeed
without being complete. `complete_iff` says when this happens: in memory when two bundles meet in a name,
in files when two passes meet in a file.
-/

namespace BundleForge

/-- The source under the name of a type. -/
def MemorySink.held (world : World MemorySink) (claim : Claim) : Option String :=
  world.sink.get? claim.qualifiedName

/-- The text of the file of a type. -/
def FileSink.held (world : World FileSink) (claim : Claim) : Option String :=
  (world.files.readText (world.sink.target claim)).toOption

theorem Turn.held_eq {outDir : Path} {world : World FileSink} (hdir : world.sink.outDir = outDir)
    (turn : Turn FileSink) :
    FileSink.held world turn.claim = (world.files.readText (turn.path outDir)).toOption := by
  rw [FileSink.held, FileSink.target_eq, hdir]
  rfl

theorem Turn.WrittenAt.held {plan : Plan} {outDir : Path} {world : World FileSink}
    {turn other : Turn FileSink} {place : Place} (hdir : world.sink.outDir = outDir)
    (hlocate : world.files.locate (turn.path outDir) = .ok place)
    (hwritten : other.WrittenAt plan outDir world.files place) :
    FileSink.held world turn.claim = some (other.source plan) := by
  rw [Turn.held_eq hdir, FileSystem.readText_of_node hlocate hwritten.node]
  rfl

/-! ### Names of implementations -/

theorem TypeName.qualify_inj {module first second : String}
    (h : qualify module first = qualify module second) : first = second := by
  rw [qualify, qualify] at h
  split at h
  · exact h
  · have hlist := congrArg String.toList h
    simp only [String.toList_append, List.append_right_inj] at hlist
    exact String.toList_inj.1 hlist

theorem Bundle.implementation_inj {bundle : Bundle} {first second : Option String}
    (h : bundle.implementation first = bundle.implementation second) : first = second := by
  have hlist := congrArg String.toList h
  rw [implementation, implementation] at hlist
  unfold implementationName at hlist
  cases first with
  | none =>
    cases second with
    | none => rfl
    | some locale =>
      have hlength := congrArg List.length hlist
      simp only [String.toList_append, List.length_append] at hlength
      have hbar : "_".toList.length = 1 := rfl
      omega
  | some locale =>
    cases second with
    | none =>
      have hlength := congrArg List.length hlist
      simp only [String.toList_append, List.length_append] at hlength
      have hbar : "_".toList.length = 1 := rfl
      omega
    | some locale' =>
      simp only [String.toList_append, List.append_left_inj, List.append_right_inj] at hlist
      exact congrArg some (String.toList_inj.1 hlist)

namespace Run

variable {bundles : Bundles} {configured : List String}

/-- No two bundles meet in the name of an implementation, whatever the locales. -/
def DistinctNames (bundles : Bundles) (configured : List String) : Prop :=
  ∀ first ∈ bundles.values, ∀ second ∈ bundles.values,
    ∀ locale ∈ locales configured, ∀ locale' ∈ locales configured,
      first.implementationPath locale = second.implementationPath locale' → first = second

theorem nodup_passes (hbundles : bundles.values.Nodup) (hconfigured : configured.Nodup) :
    (passes bundles configured).Nodup := by
  refine List.Nodup.product hbundles (List.nodup_cons.2 ⟨by simp, ?_⟩)
  exact hconfigured.map fun _ _ => Option.some.inj

theorem mem_passes {pass : Bundle × Option String} :
    pass ∈ passes bundles configured ↔ pass.1 ∈ bundles.values ∧ pass.2 ∈ locales configured :=
  List.mem_product

theorem nodup_keys_memory_iff (hbundles : bundles.values.Nodup) (hconfigured : configured.Nodup) :
    (keys MemorySink.register (passes bundles configured)).Nodup ↔ DistinctNames bundles configured := by
  rw [keys, List.nodup_map_iff_inj_on (nodup_passes hbundles hconfigured)]
  constructor
  · intro h first hfirst second hsecond locale hlocale locale' hlocale' hsame
    have hpass := h (first, locale) (mem_passes.2 ⟨hfirst, hlocale⟩) (second, locale')
      (mem_passes.2 ⟨hsecond, hlocale'⟩) hsame
    exact (Prod.mk.inj hpass).1
  · rintro h ⟨first, locale⟩ hpass ⟨second, locale'⟩ hpass' hsame
    obtain ⟨hfirst, hlocale⟩ := mem_passes.1 hpass
    obtain ⟨hsecond, hlocale'⟩ := mem_passes.1 hpass'
    obtain rfl := h first hfirst second hsecond locale hlocale locale' hlocale' hsame
    exact congrArg (Prod.mk first) (Bundle.implementation_inj (TypeName.qualify_inj hsame))

/-! ### Runs that keep every source -/

variable {σ : Type} [Sink σ] {plan : Plan} {world : World σ} {held : World σ → Claim → Option String}

/-- Every declared bundle and every locale has a pass that committed its source, and that source is held
at the end. -/
def Complete (plan : Plan) (configured : List String) (world : World σ)
    (held : World σ → Claim → Option String) : Prop :=
  ∀ bundle ∈ plan.bundles.values, ∀ locale ∈ locales configured,
    ∃ turn ∈ turns plan world (passes plan.bundles configured),
      turn.bundle = bundle ∧ turn.locale = locale ∧ turn.Committed plan ∧
        held (all plan configured world).2 turn.claim = some (turn.source plan)

theorem complete_iff_forall (hnodup : (passes plan.bundles configured).Nodup) :
    Complete plan configured world held ↔
      ∀ turn ∈ turns plan world (passes plan.bundles configured), turn.Committed plan ∧
        held (all plan configured world).2 turn.claim = some (turn.source plan) := by
  have hsubjects := subjects_turns plan world (passes plan.bundles configured)
  constructor
  · intro hcomplete turn hturn
    have hmem : (turn.bundle, turn.locale) ∈ passes plan.bundles configured := by
      rw [← hsubjects]
      exact List.mem_map_of_mem hturn
    obtain ⟨hbundle, hlocale⟩ := mem_passes.1 hmem
    obtain ⟨other, hother, hsame, hsame', hkept⟩ := hcomplete _ hbundle _ hlocale
    rw [← hsubjects] at hnodup
    obtain rfl := List.inj_on_of_nodup_map hnodup hother hturn (Prod.ext hsame hsame')
    exact hkept
  · intro hall bundle hbundle locale hlocale
    have hmem : (bundle, locale) ∈ passes plan.bundles configured := mem_passes.2 ⟨hbundle, hlocale⟩
    rw [← hsubjects] at hmem
    obtain ⟨turn, hturn, hsame⟩ := List.mem_map.1 hmem
    exact ⟨turn, hturn, (Prod.mk.inj hsame).1, (Prod.mk.inj hsame).2, hall turn hturn⟩

theorem fine_of_isSuccess (h : (all plan configured world).1.isSuccess = true) :
    ∀ turn ∈ turns plan world (passes plan.bundles configured), turn.Succeeds plan :=
  (failures_each (List.isEmpty_iff.1 h)).2

theorem world_all (plan : Plan) (configured : List String) (world : World σ) :
    (all plan configured world).2 = after plan world (passes plan.bundles configured) :=
  world_each plan world {} _

theorem complete_memory_iff {files : FileSystem} {finder : Finder}
    (hbundles : plan.bundles.values.Nodup) (hconfigured : configured.Nodup)
    (hsuccess : (all plan configured ⟨files, finder, ({} : MemorySink)⟩).1.isSuccess = true) :
    Complete plan configured ⟨files, finder, {}⟩ MemorySink.held ↔
      DistinctNames plan.bundles configured := by
  have hfine := fine_of_isSuccess hsuccess
  have hcommitted := forall_committed_iff MemorySink.register trivial hfine
  rw [complete_iff_forall (nodup_passes hbundles hconfigured),
    ← nodup_keys_memory_iff hbundles hconfigured]
  constructor
  · intro hall
    exact (hcommitted.1 fun turn hturn => (hall turn hturn).1).1
  · intro hnodup turn hturn
    have hturnCommitted := hcommitted.2 ⟨hnodup, fun k _ => MemorySink.fresh_register.not_taken k⟩ turn hturn
    refine ⟨hturnCommitted, ?_⟩
    rw [MemorySink.held, world_all]
    exact get?_after_of_committed hfine hturn hturnCommitted

/-- No two passes of a run meet in a file: their paths differ, and where two paths can only name one
place, both passes commit the same source. -/
structure SeparateFiles (plan : Plan) (configured : List String) (world : World FileSink) : Prop where
  paths : ((passes plan.bundles configured).map fun pass =>
    (world.sink.target (Pass.wanted pass.1 pass.2)).components).Nodup
  places : ∀ first ∈ turns plan world (passes plan.bundles configured),
    ∀ second ∈ turns plan world (passes plan.bundles configured),
      world.files.destination (world.sink.target first.claim) =
        world.files.destination (world.sink.target second.claim) →
      first.source plan = second.source plan

theorem complete_files_iff {files : FileSystem} {finder : Finder} {outDir : Path}
    (hkeeps : plan.registry.KeepsSources)
    (hbundles : plan.bundles.values.Nodup) (hconfigured : configured.Nodup)
    (hsuccess : (all plan configured ⟨files, finder, (⟨outDir, .empty⟩ : FileSink)⟩).1.isSuccess = true) :
    Complete plan configured ⟨files, finder, ⟨outDir, .empty⟩⟩ FileSink.held ↔
      SeparateFiles plan configured ⟨files, finder, ⟨outDir, .empty⟩⟩ := by
  have hfine := fine_of_isSuccess hsuccess
  have hfresh : (FileSink.register outDir).Valid (⟨outDir, .empty⟩ : FileSink) := rfl
  have hcommitted := forall_committed_iff (FileSink.register outDir) hfresh hfine
  have hdir := outDir_after hkeeps hfine hfresh
  have hgrows := grows_after hkeeps hfine hfresh
  rw [complete_iff_forall (nodup_passes hbundles hconfigured)]
  constructor
  · intro hall
    refine ⟨(hcommitted.1 fun turn hturn => (hall turn hturn).1).1, ?_⟩
    intro first hfirst second hsecond hsame
    obtain ⟨hfirstCommitted, hfirstHeld⟩ := hall first hfirst
    obtain ⟨hsecondCommitted, hsecondHeld⟩ := hall second hsecond
    obtain ⟨place, hlocate, -⟩ := exists_writtenAt hkeeps hfine hfresh hfirst hfirstCommitted
    obtain ⟨place', hlocate', -⟩ := exists_writtenAt hkeeps hfine hfresh hsecond hsecondCommitted
    -- Both paths name something in the end, and a path has only one place to name.
    have hplaces : place = place' := by
      rw [FileSystem.eq_destination_of_locate hlocate, FileSystem.eq_destination_of_locate hlocate',
        hgrows.destination, hgrows.destination]
      exact hsame
    have hread := FileSystem.readText_congr (hlocate.trans (hplaces ▸ hlocate'.symm))
    rw [world_all, Turn.held_eq hdir] at hfirstHeld hsecondHeld
    rw [hread, hsecondHeld] at hfirstHeld
    exact (Option.some.inj hfirstHeld).symm
  · intro hseparate turn hturn
    have hturnCommitted := hcommitted.2
      ⟨hseparate.paths, fun k _ => (FileSink.fresh_register outDir).not_taken k⟩ turn hturn
    refine ⟨hturnCommitted, ?_⟩
    obtain ⟨place, hlocate, other, hother, -, hwritten⟩ :=
      exists_writtenAt hkeeps hfine hfresh hturn hturnCommitted
    have hheld := hwritten.held hdir hlocate
    have hsame : FileSystem.destination files (turn.path outDir) =
        FileSystem.destination files (other.path outDir) := by
      rw [← hgrows.destination, ← hgrows.destination, ← FileSystem.eq_destination_of_locate hlocate,
        ← FileSystem.eq_destination_of_locate hwritten.locate]
    rw [world_all, hheld, hseparate.places turn hturn other hother hsame]

/-- A run over an accepted manifest that reports no failure keeps every bundle for every locale, exactly
if in memory no two bundles meet in a name, and in files no two passes meet in a file. -/
theorem complete_iff {text : String} {manifest : Manifest} {plan : Plan} {configured : List String}
    (hparse : Manifest.parse text = .ok manifest) (hplan : plan.bundles = manifest.bundles)
    (hconfigured : configured.Nodup) (files : FileSystem) (finder : Finder) (outDir : Path) :
    ((all plan configured ⟨files, finder, ({} : MemorySink)⟩).1.isSuccess = true →
      (Complete plan configured ⟨files, finder, {}⟩ MemorySink.held ↔
        DistinctNames plan.bundles configured)) ∧
    (plan.registry.KeepsSources →
      (all plan configured ⟨files, finder, (⟨outDir, .empty⟩ : FileSink)⟩).1.isSuccess = true →
      (Complete plan configured ⟨files, finder, ⟨outDir, .empty⟩⟩ FileSink.held ↔
        SeparateFiles plan configured ⟨files, finder, ⟨outDir, .empty⟩⟩)) := by
  obtain ⟨declarations, haccepted⟩ := Manifest.exists_declarations_of_parse hparse
  have hbundles : plan.bundles.values.Nodup := by
    rw [hplan]
    exact (Manifest.nodup_bundles haccepted).of_map
  exact ⟨complete_memory_iff hbundles hconfigured,
    fun hkeeps => complete_files_iff hkeeps hbundles hconfigured⟩

def clashText : String :=
"[[bundles]]
name = \"crate::Icons\"
enclosing = [\"Outer\"]

[[bundles]]
name = \"crate::Outer_Icons\"
"

def icons : Bundle where
  name := ⟨"crate::Icons"⟩
  enclosing := ["Outer"]

def outerIcons : Bundle where
  name := ⟨"crate::Outer_Icons"⟩

@[irreducible]
def clash : Manifest :=
  (Manifest.ofDeclarations ⟨[], [icons, outerIcons]⟩).toOption.getD ⟨.builtin, .empty⟩

private theorem parse_clashText : Manifest.parse clashText = .ok clash := by
  have hread : Toml.read Declarations.decode clashText = .ok ⟨[], [icons, outerIcons]⟩ := by
    refine Toml.read_of_lines rfl ?_ ?_ <;> decide +kernel
  unfold clash
  exact Manifest.parse_of_isSome hread (by decide +kernel) _

def clashPlan : Plan := { hierarchy := clash.hierarchy, bundles := clash.bundles }

/-- Neither sink keeps both bundles, though both runs report success. -/
theorem not_complete_clash :
    ((all clashPlan [] ⟨.empty, {}, ({} : MemorySink)⟩).1.isSuccess = true ∧
      ¬ Complete clashPlan [] ⟨.empty, {}, {}⟩ MemorySink.held) ∧
    (all clashPlan [] ⟨.empty, {}, (⟨⟨"/out"⟩, .empty⟩ : FileSink)⟩).1.isSuccess = true ∧
      ¬ Complete clashPlan [] ⟨.empty, {}, ⟨⟨"/out"⟩, .empty⟩⟩ FileSink.held := by
  have hplan : clashPlan.bundles = clash.bundles := rfl
  obtain ⟨hmemory, hfiles⟩ :=
    complete_iff parse_clashText hplan List.nodup_nil .empty {} ⟨"/out"⟩
  have hmemorySuccess : (all clashPlan [] ⟨.empty, {}, ({} : MemorySink)⟩).1.isSuccess = true := by
    decide +kernel
  have hfilesSuccess :
      (all clashPlan [] ⟨.empty, {}, (⟨⟨"/out"⟩, .empty⟩ : FileSink)⟩).1.isSuccess = true := by
    decide +kernel
  refine ⟨⟨hmemorySuccess, fun hcomplete => ?_⟩, hfilesSuccess, fun hcomplete => ?_⟩
  · have hdistinct := (hmemory hmemorySuccess).1 hcomplete
    have hmeet : ¬ DistinctNames clashPlan.bundles [] := by
      unfold DistinctNames
      decide +kernel
    exact hmeet hdistinct
  · have hseparate := (hfiles Registry.keepsSources_standard hfilesSuccess).1 hcomplete
    have hmeet : ¬ ((passes clashPlan.bundles []).map fun pass =>
        ((⟨⟨"/out"⟩, .empty⟩ : FileSink).target (Pass.wanted pass.1 pass.2)).components).Nodup := by
      decide +kernel
    exact hmeet hseparate.paths

end Run

end BundleForge
