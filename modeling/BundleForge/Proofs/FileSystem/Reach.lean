import BundleForge.Proofs.FileSystem.Names
import BundleForge.Proofs.FileSystem.Puts
/-!
# Directories that are reached

Once something below a directory is found under its path, the directory is there with all that is above it:
creating it again changes nothing, and what is written below it from then on replaces nothing that is
there under the same path.
-/

namespace BundleForge.FileSystem

variable {files later : FileSystem} {place target : Place} {dir path : Path} {content : Bytes}

theorem exists_follow_of_append {first second : List String}
    (h : files.follow place (first ++ second) = .ok target) :
    ∃ middle, files.follow place first = .ok middle ∧ files.follow middle second = .ok target := by
  induction first generalizing place with
  | nil => exact ⟨place, rfl, h⟩
  | cons step rest ih =>
    rw [List.cons_append, follow] at h
    rw [follow]
    split at h
    · rename_i hdirectory
      rw [if_pos hdirectory]
      split at h
      · rename_i hstay
        rw [if_pos hstay]
        exact ih h
      · rename_i hgo
        rw [if_neg hgo]
        split at h
        · rename_i hup
          rw [if_pos hup]
          exact ih h
        · rename_i hdown
          rw [if_neg hdown]
          split at h
          · rename_i hpresent
            rw [if_pos hpresent]
            exact ih h
          · simp at h
    · simp at h

theorem isDirectoryAt_of_follow_cons {step : String} {rest : List String}
    (h : files.follow place (step :: rest) = .ok target) : files.isDirectoryAt place = true := by
  rw [follow] at h
  split at h
  · assumption
  · simp at h

theorem isSome_of_follow {steps : List String} (hup : ".." ∉ steps) (hplace : (files.node? place).isSome = true)
    (h : files.follow place steps = .ok target) : (files.node? target).isSome = true := by
  induction steps generalizing place with
  | nil => exact Except.ok.inj h ▸ hplace
  | cons step rest ih =>
    rw [List.mem_cons, not_or] at hup
    rw [follow] at h
    split at h
    · split at h
      · exact ih hup.2 hplace h
      · rw [if_neg (Ne.symm hup.1)] at h
        split at h
        · rename_i hpresent
          exact ih hup.2 hpresent h
        · simp at h
    · simp at h

theorem read_eq_ok_iff (hlocate : files.locate path = .ok place) :
    files.read path = .ok content ↔ files.node? place = some (.file content) := by
  unfold read
  rw [hlocate]
  dsimp only [bind, Except.bind]
  split
  · rename_i found hnode
    rw [hnode, Except.ok.injEq, Option.some.injEq, Node.file.injEq]
  · rename_i hnode
    simp [hnode]
  · rename_i hnode
    simp [hnode]

theorem pathExists_of_locate (hlocate : files.locate path = .ok place) : files.pathExists path = true := by
  rw [pathExists, hlocate]
  rfl

/-! ### Directories that are there already -/

theorem segments_eq_cutTarget (path : Path) :
    (cutTarget path).1 = [] ∧ (cutTarget path).2.1 = "" ∨
      ∃ blanks, path.segments = (cutTarget path).1 ++ (cutTarget path).2.1 :: blanks := by
  have hsplit := (List.takeWhile_append_dropWhile (p := (· = "")) (l := path.segments.reverse)).symm
  rw [cutTarget]
  cases hnamed : path.segments.reverse.dropWhile (· = "") with
  | nil => exact Or.inl ⟨rfl, rfl⟩
  | cons name before =>
    right
    rw [hnamed] at hsplit
    refine ⟨(path.segments.reverse.takeWhile (· = "")).reverse, ?_⟩
    have hsegments := congrArg List.reverse hsplit
    rwa [List.reverse_reverse, List.reverse_append, List.reverse_cons, List.append_assoc] at hsegments

theorem locateParent_of_follow (hdir : dir.text ≠ "")
    (h : files.follow (files.start dir) dir.segments = .ok place) :
    files.locateParent dir = .error .notADirectory ∨ ∃ above name,
      files.locateParent dir = .ok (above, name) ∧
        (isNew name = true → (files.node? (name :: above)).isSome = true) := by
  have hcut := segments_eq_cutTarget dir
  unfold locateParent
  rcases htarget : cutTarget dir with ⟨before, name, slashes⟩
  rw [htarget] at hcut
  dsimp only at hcut ⊢
  rw [if_neg hdir]
  rcases hcut with ⟨rfl, rfl⟩ | ⟨blanks, hsegments⟩
  · by_cases hdirectory : files.isDirectoryAt (files.start dir) = true
    · refine Or.inr ⟨files.start dir, "", ?_, fun hnew => absurd hnew (by decide)⟩
      simp [bind, Except.bind, follow, hdirectory]
    · left
      simp [bind, Except.bind, follow, hdirectory]
  · rw [hsegments] at h
    obtain ⟨above, hbefore, hname⟩ := exists_follow_of_append h
    have hdirectory := isDirectoryAt_of_follow_cons hname
    refine Or.inr ⟨above, name, ?_, fun hnew => ?_⟩
    · simp [bind, Except.bind, hbefore, hdirectory]
    · simp only [isNew, Bool.and_eq_true, bne_iff_ne] at hnew
      rw [follow, if_pos hdirectory, if_neg (not_or.2 hnew.1), if_neg hnew.2] at hname
      by_contra hmissing
      rw [if_neg hmissing] at hname
      simp at hname

theorem createDirectory_of_follow (hdir : dir.text ≠ "")
    (h : files.follow (files.start dir) dir.segments = .ok place) :
    files.createDirectory dir = .error .notADirectory ∨ files.createDirectory dir = .error .alreadyExists := by
  unfold createDirectory
  rcases locateParent_of_follow hdir h with hparent | ⟨above, name, hparent, hpresent⟩
  · rw [hparent]
    exact Or.inl rfl
  · right
    rw [hparent]
    dsimp only [bind, Except.bind]
    refine if_neg fun hmissing => ?_
    rw [Bool.and_eq_true, Option.isNone_iff_eq_none] at hmissing
    have hsome := hpresent hmissing.1
    rw [hmissing.2] at hsome
    exact Bool.noConfusion hsome

theorem createDirectories_of_follow
    (h : dir.text ≠ "" → ∃ place, files.follow (files.start dir) dir.segments = .ok place) :
    (files.createDirectories dir).2 = files := by
  obtain ⟨above, hchain⟩ : ∃ above, dir.ancestors = dir :: above := by
    rw [Path.ancestors]
    cases dir.segments.length with
    | zero => exact ⟨[], rfl⟩
    | succ count =>
      rw [Path.lineage]
      split
      · exact ⟨_, rfl⟩
      · exact ⟨[], rfl⟩
  rw [createDirectories, hchain, createChain]
  split
  · rfl
  · rename_i hdir
    obtain ⟨place, hfollow⟩ := h hdir
    rcases createDirectory_of_follow hdir hfollow with hcreate | hcreate
    · rw [hcreate]
    · rw [hcreate]

/-- What is written under a path that leads nowhere replaces nothing. -/
theorem grows_of_write_new (hnew : files.pathExists path = false) (h : files.write path content = .ok later) :
    Grows (fun _ => True) files later := by
  obtain ⟨hnonempty, before, name, above, hsegments, hname, hfollow, hdirectory, hfile, rfl⟩ :=
    write_eq_ok h
  have hputs : Puts files [(name :: above, content)] _ := .file hfile (.nil _)
  have hfree : files.node? (name :: above) = none := by
    by_contra hpresent
    have hlocate := locate_of_follow hnonempty hsegments hname hfollow hdirectory
      (Option.isSome_iff_ne_none.2 hpresent)
    rw [pathExists, hlocate] at hnew
    exact Bool.noConfusion hnew
  have hgrows := hputs.grows_of_one
  refine ⟨hgrows.workingDirectory, hgrows.directory, hgrows.present, fun {other node} _ hnode => ?_⟩
  refine hgrows.content ?_ hnode
  rintro rfl
  rw [hfree] at hnode
  exact absurd hnode.symm (Option.some_ne_none node)

end BundleForge.FileSystem
