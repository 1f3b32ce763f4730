import BundleForge.Proofs.Pass.Sources
import BundleForge.Proofs.Run.Turns
/-!
# What the file sink holds

A committed source is written to a file, and the path of that file names the same place from then on. The
place is that of a generated source, so later passes leave it alone unless they commit to it: at the end
of a run it holds the source of the last pass whose path names it.
-/

namespace BundleForge

open FileSystem (Grows IsSource)

theorem FileSink.exists_place_of_commit {sink : FileSink} {files later : FileSystem} {claim : Claim}
    {source : String} {path : Option Path}
    (hname : sourceEnding <:+ (sink.target claim).text.toList)
    (h : sink.commit files claim source = (.ok path, later)) :
    ∃ place, IsSource place ∧ later.locate (sink.target claim) = .ok place ∧
      later.node? place = some (.file (Bytes.ofText source)) ∧ Grows (· ≠ place) files later := by
  obtain ⟨-, name, above, hlast, hlocate, hnode, hgrows⟩ := written_of_commit h
  exact ⟨name :: above, ⟨name, above, rfl, Path.suffix_segment (by decide) hname hlast⟩, hlocate, hnode, hgrows⟩

namespace Turn

variable {plan : Plan} {turn : Turn FileSink} {outDir : Path}

def path (outDir : Path) (turn : Turn FileSink) : Path := FileSink.pathOf outDir turn.claim

/-- A file holds the source of a turn, and its path names the place of that file. -/
structure WrittenAt (plan : Plan) (outDir : Path) (files : FileSystem) (turn : Turn FileSink)
    (place : Place) : Prop where
  locate : files.locate (turn.path outDir) = .ok place
  node : files.node? place = some (.file (Bytes.ofText (turn.source plan)))

theorem Committed.exists_place (hkeeps : plan.registry.KeepsSources)
    (hcommitted : turn.Committed plan) (hdir : turn.world.sink.outDir = outDir) :
    ∃ place, IsSource place ∧ turn.WrittenAt plan outDir (turn.pass plan).world.files place ∧
      Grows (fun other => IsSource other ∧ other ≠ place) turn.world.files
        (turn.pass plan).world.files := by
  obtain ⟨claim, granted, path, hclaim, hcommit⟩ := hcommitted
  obtain ⟨rfl, -, hgranted, -⟩ := (FileSink.register outDir).granted hdir hclaim
  have hworked := Pass.grows_worked hkeeps turn.bundle turn.locale turn.world
  rw [FileSink.commit_eq] at hcommit
  obtain ⟨hresult, hrest⟩ := Prod.mk.inj hcommit
  have hname : sourceEnding <:+ (granted.target turn.claim).text.toList :=
    granted.suffix_target _ turn.bundle turn.locale
  obtain ⟨place, hsource, hlocate, hnode, hgrows⟩ := FileSink.exists_place_of_commit hname
    (Prod.ext hresult (Prod.mk.inj hrest).1)
  rw [FileSink.target_eq, hgranted] at hlocate
  exact ⟨place, hsource, ⟨hlocate, hnode⟩,
    (hworked.mono fun _ h => h.1).trans (hgrows.mono fun _ h => h.2)⟩

theorem grows_pass (hkeeps : plan.registry.KeepsSources)
    (hfine : turn.Succeeds plan)
    (hdir : turn.world.sink.outDir = outDir) :
    (turn.pass plan).world.sink.outDir = outDir ∧
      Grows (fun _ => False) turn.world.files (turn.pass plan).world.files := by
  rcases committed_or_skipped hfine with hcommitted | hskipped
  · obtain ⟨-, hnext, -⟩ := hcommitted.granted (FileSink.register outDir) hdir
    obtain ⟨place, -, -, hgrows⟩ := hcommitted.exists_place hkeeps hdir
    exact ⟨hnext, hgrows.mono fun _ h => h.elim⟩
  · rw [(hskipped.passed_over (FileSink.register outDir) hdir).2]
    exact ⟨hdir, .refl _⟩

/-- A source is kept through a turn, or is replaced by that of the turn. -/
theorem node?_pass (hkeeps : plan.registry.KeepsSources)
    (hfine : turn.Succeeds plan)
    (hdir : turn.world.sink.outDir = outDir) {place : Place} (hsource : IsSource place)
    {node : Node} (hnode : turn.world.files.node? place = some node) :
    (turn.pass plan).world.files.node? place = some node ∨
      turn.Committed plan ∧ turn.WrittenAt plan outDir (turn.pass plan).world.files place := by
  rcases committed_or_skipped hfine with hcommitted | hskipped
  · obtain ⟨written, -, hwritten, hgrows⟩ := hcommitted.exists_place hkeeps hdir
    by_cases hsame : place = written
    · exact Or.inr ⟨hcommitted, hsame ▸ hwritten⟩
    · exact Or.inl (hgrows.content ⟨hsource, hsame⟩ hnode)
  · rw [(hskipped.passed_over (FileSink.register outDir) hdir).2]
    exact Or.inl hnode

end Turn

namespace Run

variable {plan : Plan} {world : World FileSink} {passes : List (Bundle × Option String)}
  {outDir : Path}

theorem outDir_after (hkeeps : plan.registry.KeepsSources)
    (hfine : ∀ turn ∈ turns plan world passes, turn.Succeeds plan)
    (hdir : world.sink.outDir = outDir) : (after plan world passes).sink.outDir = outDir := by
  induction passes generalizing world with
  | nil => exact hdir
  | cons pass rest ih =>
    obtain ⟨hfirst, hrest⟩ := List.forall_mem_cons.1 hfine
    exact ih hrest (Turn.grows_pass hkeeps hfirst hdir).1

theorem grows_after (hkeeps : plan.registry.KeepsSources)
    (hfine : ∀ turn ∈ turns plan world passes, turn.Succeeds plan)
    (hdir : world.sink.outDir = outDir) :
    Grows (fun _ => False) world.files (after plan world passes).files := by
  induction passes generalizing world with
  | nil => exact .refl _
  | cons pass rest ih =>
    obtain ⟨hfirst, hrest⟩ := List.forall_mem_cons.1 hfine
    obtain ⟨hnext, hgrows⟩ := Turn.grows_pass hkeeps hfirst hdir
    exact hgrows.trans (ih hrest hnext)

/-- A source is there after a run as it was before, or the run has committed another one to its place. -/
theorem node?_after (hkeeps : plan.registry.KeepsSources)
    (hfine : ∀ turn ∈ turns plan world passes, turn.Succeeds plan)
    (hdir : world.sink.outDir = outDir) {place : Place} (hsource : IsSource place) {node : Node}
    (hnode : world.files.node? place = some node) :
    (after plan world passes).files.node? place = some node ∨
      ∃ turn ∈ turns plan world passes, turn.Committed plan ∧
        turn.WrittenAt plan outDir (after plan world passes).files place := by
  induction passes generalizing world node with
  | nil => exact Or.inl hnode
  | cons pass rest ih =>
    obtain ⟨hfirst, hrest⟩ := List.forall_mem_cons.1 hfine
    obtain ⟨hnext, -⟩ := Turn.grows_pass hkeeps hfirst hdir
    -- Later passes may replace even what this one writes; the last of them is the turn to name.
    rcases Turn.node?_pass hkeeps hfirst hdir hsource hnode with hkept | ⟨hcommitted, hwritten⟩
    · rcases ih hrest hnext hkept with hsame | ⟨turn, hturn, hlater⟩
      · exact Or.inl hsame
      · exact Or.inr ⟨turn, List.mem_cons_of_mem _ hturn, hlater⟩
    · rcases ih hrest hnext hwritten.node with hsame | ⟨turn, hturn, hlater⟩
      · have hgrows := grows_after hkeeps hrest hnext
        exact Or.inr ⟨_, List.mem_cons_self, hcommitted, ⟨hgrows.locate hwritten.locate, hsame⟩⟩
      · exact Or.inr ⟨turn, List.mem_cons_of_mem _ hturn, hlater⟩

/-- After a run the path of a committed source names a place that holds a source of the run. -/
theorem exists_writtenAt (hkeeps : plan.registry.KeepsSources)
    (hfine : ∀ turn ∈ turns plan world passes, turn.Succeeds plan)
    (hdir : world.sink.outDir = outDir) {turn : Turn FileSink}
    (hturn : turn ∈ turns plan world passes) (hcommitted : turn.Committed plan) :
    ∃ place, (after plan world passes).files.locate (turn.path outDir) = .ok place ∧
      ∃ other ∈ turns plan world passes, other.Committed plan ∧
        other.WrittenAt plan outDir (after plan world passes).files place := by
  induction passes generalizing world with
  | nil => exact absurd hturn List.not_mem_nil
  | cons pass rest ih =>
    obtain ⟨hfirst, hrest⟩ := List.forall_mem_cons.1 hfine
    obtain ⟨hnext, -⟩ := Turn.grows_pass hkeeps hfirst hdir
    rcases List.mem_cons.1 hturn with rfl | hlater
    · obtain ⟨place, hsource, hwritten, -⟩ := hcommitted.exists_place hkeeps hdir
      have hlocate := (grows_after hkeeps hrest hnext).locate hwritten.locate
      refine ⟨place, hlocate, ?_⟩
      rcases node?_after hkeeps hrest hnext hsource hwritten.node with hsame | ⟨other, hother, hlater⟩
      · exact ⟨_, List.mem_cons_self, hcommitted, ⟨hlocate, hsame⟩⟩
      · exact ⟨other, List.mem_cons_of_mem _ hother, hlater⟩
    · obtain ⟨place, hlocate, other, hother, hwritten⟩ := ih hrest hnext hlater
      exact ⟨place, hlocate, other, List.mem_cons_of_mem _ hother, hwritten⟩

end Run

end BundleForge
