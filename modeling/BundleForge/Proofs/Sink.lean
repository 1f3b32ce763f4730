import BundleForge.Proofs.FileSystem.Puts
import BundleForge.Sink
/-!
# What a sink does with sources

A commit that succeeds has written one file, and one that fails has created directories at the most. What a sink holds
of the sources that were committed to it is not changed by claims.
-/

namespace BundleForge

/-- What a sink holds of the sources that were committed to it, which claims do not change. -/
structure Sink.View (σ : Type) [Sink σ] where
  held : σ → FileSystem → Claim → Option String
  claim_keeps : ∀ sink wanted, held (Sink.claim sink wanted).2 = held sink

def MemorySink.view : Sink.View MemorySink where
  held sink _ claim := sink.get? claim.qualifiedName
  claim_keeps sink wanted := by
    simp only [Sink.claim, MemorySink.claim]
    split <;> rfl

def FileSink.view : Sink.View FileSink where
  held sink files claim := (files.readText (sink.target claim)).toOption
  claim_keeps sink wanted := by
    have hdir : (Sink.claim sink wanted).2.outDir = sink.outDir := by
      simp only [Sink.claim, FileSink.claim]
      split
      · split <;> rfl
      · rfl
    funext files claim
    rw [target, target, hdir]

namespace FileSink

theorem commit_eq (sink : FileSink) (files : FileSystem) (claim : Claim) (source : String) :
    Sink.commit sink files claim source =
      ((sink.commit files claim source).1, (sink.commit files claim source).2, sink) := by
  rcases hcommit : sink.commit files claim source with ⟨result, later⟩
  simp only [Sink.commit, hcommit]

def pathOf (outDir : Path) (wanted : Claim) : Path := (⟨outDir, .empty⟩ : FileSink).target wanted

theorem target_eq (sink : FileSink) (wanted : Claim) :
    sink.target wanted = pathOf sink.outDir wanted := rfl

section Commits

open FileSystem (Grows)

variable {sink : FileSink} {files later : FileSystem} {claim : Claim} {source : String}

/-- A commit that succeeds leaves the source at the place that the path of the claim names from then on,
and replaces nothing else. -/
theorem written_of_commit {path : Option Path} (h : sink.commit files claim source = (.ok path, later)) :
    path = some (sink.target claim) ∧
    ∃ name above, (sink.target claim).segments.getLast? = some name ∧
      later.locate (sink.target claim) = .ok (name :: above) ∧
      later.node? (name :: above) = some (.file (Bytes.ofText source)) ∧
      Grows (· ≠ name :: above) files later := by
  unfold commit at h
  dsimp only at h
  split at h
  · simp at h
  · rename_i ready hready
    have hdirectories : Grows (fun _ => True) files
        (files.createDirectories ((sink.target claim).parent?.getD ⟨""⟩)).2 :=
      FileSystem.grows_createDirectories files _ _
    rw [hready] at hdirectories
    split at h
    · rename_i written hwritten
      obtain ⟨hpath, rfl⟩ := Prod.mk.inj h
      obtain ⟨name, above, hlast, hlocate, hnode, hputs⟩ :=
        FileSystem.exists_place_of_write hwritten
      exact ⟨(Except.ok.inj hpath).symm, name, above, hlast, hlocate, hnode,
        (hdirectories.mono fun _ _ => trivial).trans hputs.grows_of_one⟩
    · simp at h

theorem grows_of_commit_error {error : ResourceError}
    (h : sink.commit files claim source = (.error error, later)) : Grows (fun _ => True) files later := by
  have hdirectories : Grows (fun _ => True) files
      (files.createDirectories ((sink.target claim).parent?.getD ⟨""⟩)).2 :=
    FileSystem.grows_createDirectories files _ _
  unfold commit at h
  dsimp only at h
  split at h
  · rename_i cause ready hready
    rw [hready] at hdirectories
    exact (Prod.mk.inj h).2 ▸ hdirectories
  · rename_i ready hready
    rw [hready] at hdirectories
    split at h
    · simp at h
    · exact (Prod.mk.inj h).2 ▸ hdirectories

end Commits

end FileSink

end BundleForge
