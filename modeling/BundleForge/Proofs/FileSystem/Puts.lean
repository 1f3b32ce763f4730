import BundleForge.Proofs.FileSystem
/-!
# What is put into a file system

All that is done to a file system is that directories are put where nothing was, and files where no directory
was. `Puts` keeps the list of the files that were put, so whatever a file system holds afterwards it held
before, or it is a directory or one of that list.
-/

namespace BundleForge.FileSystem

variable {files middle later : FileSystem} {place : Place} {path : Path} {content : Bytes}
  {written more : List (Place × Bytes)}

/-- Directories and files are put one by one. -/
inductive Puts : FileSystem → List (Place × Bytes) → FileSystem → Prop
  | nil (files : FileSystem) : Puts files [] files
  | directory {files later : FileSystem} {place : Place} {written : List (Place × Bytes)}
      (free : files.node? place = none) (rest : Puts (files.put place .directory) written later) :
      Puts files written later
  | file {files later : FileSystem} {place : Place} {content : Bytes} {written : List (Place × Bytes)}
      (free : files.node? place ≠ some .directory)
      (rest : Puts (files.put place (.file content)) written later) :
      Puts files ((place, content) :: written) later

/-- The files of two file systems are the same, with the same contents. -/
def SameFiles (files later : FileSystem) : Prop :=
  ∀ place content, later.node? place = some (.file content) ↔ files.node? place = some (.file content)

theorem node?_put_self (hfree : files.node? place ≠ some .directory) (node : Node) :
    (files.put place node).node? place = some node := by
  have hroot : place ≠ [] := by
    rintro rfl
    exact hfree (if_pos rfl)
  rw [node?_put, if_neg hroot, if_pos rfl]

theorem node?_put_of_ne {other : Place} (node : Node) (hne : other ≠ place) :
    (files.put place node).node? other = files.node? other := by
  rw [node?_put, if_neg hne]
  split
  · rename_i hroot
    rw [hroot, node?, if_pos rfl]
  · rfl

namespace Puts

theorem append (h : Puts files written middle) (h' : Puts middle more later) :
    Puts files (written ++ more) later := by
  induction h with
  | nil files => exact h'
  | directory free rest ih => exact .directory free (ih h')
  | file free rest ih => exact .file free (ih h')

theorem workingDirectory (h : Puts files written later) :
    later.workingDirectory = files.workingDirectory := by
  induction h with
  | nil files => rfl
  | directory free rest ih => exact ih
  | file free rest ih => exact ih

/-- What was there stays as it is unless a file is put in its place. -/
theorem node?_of_not_mem (h : Puts files written later) {node : Node}
    (hnode : files.node? place = some node)
    (hkept : node = .directory ∨ ∀ content, (place, content) ∉ written) :
    later.node? place = some node := by
  induction h with
  | nil files => exact hnode
  | @directory files later added written free rest ih =>
    apply ih ?_ hkept
    have hne : place ≠ added := by
      rintro rfl
      rw [free] at hnode
      exact absurd hnode.symm (Option.some_ne_none node)
    rw [node?_put_of_ne _ hne]
    exact hnode
  | @file files later added content written free rest ih =>
    have hne : place ≠ added := by
      rintro rfl
      rcases hkept with rfl | hkept
      · exact free hnode
      · exact hkept content List.mem_cons_self
    apply ih
    · rw [node?_put_of_ne _ hne]
      exact hnode
    · exact hkept.imp_right fun hother other hmem => hother other (List.mem_cons_of_mem _ hmem)

theorem exists_file (h : Puts files written later) (hnode : files.node? place = some (.file content)) :
    ∃ content, later.node? place = some (.file content) := by
  induction h generalizing content with
  | nil files => exact ⟨content, hnode⟩
  | @directory files later added written free rest ih =>
    by_cases hsame : place = added
    · rw [hsame, free] at hnode
      exact absurd hnode.symm (Option.some_ne_none _)
    · exact ih ((node?_put_of_ne _ hsame).trans hnode)
  | @file files later added content' written free rest ih =>
    by_cases hsame : place = added
    · rw [hsame] at ih ⊢
      exact ih (node?_put_self free _)
    · exact ih ((node?_put_of_ne _ hsame).trans hnode)

theorem file_or_mem (h : Puts files written later) (hnode : later.node? place = some (.file content)) :
    files.node? place = some (.file content) ∨ (place, content) ∈ written := by
  induction h with
  | nil files => exact Or.inl hnode
  | @directory files later added written free rest ih =>
    rcases ih hnode with hput | hmem
    · by_cases hsame : place = added
      · rw [hsame, node?_put_self (by simp [free])] at hput
        exact absurd hput (by simp)
      · exact Or.inl ((node?_put_of_ne _ hsame).symm.trans hput)
    · exact Or.inr hmem
  | @file files later added content' written free rest ih =>
    rcases ih hnode with hput | hmem
    · by_cases hsame : place = added
      · rw [hsame, node?_put_self free] at hput
        obtain rfl := Node.file.inj (Option.some.inj hput)
        exact Or.inr (hsame ▸ List.mem_cons_self)
      · exact Or.inl ((node?_put_of_ne _ hsame).symm.trans hput)
    · exact Or.inr (List.mem_cons_of_mem _ hmem)

theorem exists_file_of_mem (h : Puts files written later) (hmem : (place, content) ∈ written) :
    ∃ content, later.node? place = some (.file content) := by
  induction h with
  | nil files => exact absurd hmem List.not_mem_nil
  | directory free rest ih => exact ih hmem
  | file free rest ih =>
    rcases List.mem_cons.1 hmem with hfirst | hrest
    · obtain ⟨rfl, rfl⟩ := Prod.mk.inj hfirst
      exact rest.exists_file (node?_put_self free _)
    · exact ih hrest

theorem grows (h : Puts files written later) :
    Grows (fun place => ∀ content, (place, content) ∉ written) files later where
  workingDirectory := h.workingDirectory
  directory hplace := h.node?_of_not_mem hplace (Or.inl rfl)
  present {place} hplace := by
    obtain ⟨node, hnode⟩ := Option.isSome_iff_exists.1 hplace
    cases node with
    | directory => rw [h.node?_of_not_mem hnode (Or.inl rfl), Option.isSome_some]
    | file content =>
      obtain ⟨content', hcontent⟩ := h.exists_file hnode
      rw [hcontent, Option.isSome_some]
  content hkept hplace := h.node?_of_not_mem hplace (Or.inr hkept)

theorem grows_of_one (h : Puts files [(place, content)] later) : Grows (· ≠ place) files later := by
  apply h.grows.mono
  intro other hother content' hmem
  exact hother (Prod.mk.inj (List.mem_singleton.1 hmem)).1

end Puts

/-! ### What puts -/

theorem puts_createDirectory (h : files.createDirectory path = .ok later) : Puts files [] later := by
  obtain ⟨⟨above, name⟩, -, h⟩ := bind_eq_ok h
  dsimp only at h
  split at h
  · rename_i hnew
    rw [Bool.and_eq_true, Option.isNone_iff_eq_none] at hnew
    obtain rfl := Except.ok.inj h
    exact .directory hnew.2 (.nil _)
  · simp at h

theorem puts_createChain (files : FileSystem) (paths : List Path) :
    Puts files [] (files.createChain paths).2 := by
  induction paths generalizing files with
  | nil => exact .nil files
  | cons path above ih =>
    rw [createChain]
    split
    · exact .nil files
    · split
      · rename_i created hcreated
        exact puts_createDirectory hcreated
      · have habove := ih files
        split
        · rename_i ready hready
          rw [hready] at habove
          split
          · rename_i created hcreated
            exact habove.append (puts_createDirectory hcreated)
          · exact habove
        · rename_i error ready hready
          rw [hready] at habove
          exact habove
      · exact .nil files

theorem puts_createDirectories (files : FileSystem) (path : Path) :
    Puts files [] (files.createDirectories path).2 :=
  puts_createChain files path.ancestors

theorem grows_createDirectories (files : FileSystem) (path : Path) (kept : Place → Prop) :
    Grows kept files (files.createDirectories path).2 :=
  (puts_createDirectories files path).grows.mono fun _ _ _ => List.not_mem_nil

/-- A file that was written under a path is at the place that the path names from then on. -/
theorem exists_place_of_write (h : files.write path content = .ok later) :
    ∃ name above, path.segments.getLast? = some name ∧
      later.locate path = .ok (name :: above) ∧
      later.node? (name :: above) = some (.file content) ∧
      Puts files [(name :: above, content)] later := by
  obtain ⟨hnonempty, before, name, above, hsegments, hnew, hfollow, hdirectory, hfile, rfl⟩ :=
    write_eq_ok h
  have hputs : Puts files [(name :: above, content)] _ := .file hfile (.nil _)
  have hgrows := hputs.grows
  have hnode := node?_put_self hfile (.file content)
  refine ⟨name, above, by rw [hsegments, List.getLast?_concat], ?_, hnode, hputs⟩
  apply locate_of_follow hnonempty hsegments hnew
  · rw [hgrows.start]
    exact hgrows.follow hfollow
  · exact isDirectoryAt_iff.2 (hgrows.directory (isDirectoryAt_iff.1 hdirectory))
  · rw [hnode, Option.isSome_some]

end BundleForge.FileSystem
