import BundleForge.FileSystem
import BundleForge.Proofs.Except
import BundleForge.Proofs.OrderedMap
/-!
# How a file system grows

What a run does to a file system never takes anything away: directories stay directories, what is there
stays there, and only the content of files may be replaced. A path that named a place goes on naming it,
so a file that was written under some path is read under that path as long as nothing replaces it.
-/

namespace BundleForge.FileSystem

variable {files middle later : FileSystem} {kept : Place → Prop} {place : Place} {path : Path}

theorem node?_put (files : FileSystem) (place : Place) (node : Node) (other : Place) :
    (files.put place node).node? other =
      if other = [] then some .directory
      else if other = place then some node else files.node? other := by
  rw [node?, put, OrderedMap.get?_insert]
  by_cases hroot : other = []
  · rw [if_pos hroot, if_pos hroot]
  · rw [if_neg hroot, if_neg hroot, node?, if_neg hroot]

theorem isDirectoryAt_iff : files.isDirectoryAt place = true ↔ files.node? place = some .directory := by
  rw [isDirectoryAt, beq_iff_eq]

/-- Nothing is taken away, and what is at the places that are kept is not even replaced. -/
structure Grows (kept : Place → Prop) (files later : FileSystem) : Prop where
  workingDirectory : later.workingDirectory = files.workingDirectory
  directory : ∀ {place}, files.node? place = some .directory → later.node? place = some .directory
  present : ∀ {place}, (files.node? place).isSome → (later.node? place).isSome
  content : ∀ {place node}, kept place → files.node? place = some node →
    later.node? place = some node

namespace Grows

theorem refl (files : FileSystem) : Grows kept files files := ⟨rfl, id, id, fun _ => id⟩

theorem trans (h : Grows kept files middle) (h' : Grows kept middle later) :
    Grows kept files later where
  workingDirectory := h'.workingDirectory.trans h.workingDirectory
  directory hplace := h'.directory (h.directory hplace)
  present hplace := h'.present (h.present hplace)
  content hkept hplace := h'.content hkept (h.content hkept hplace)

theorem mono {kept' : Place → Prop} (h : Grows kept files later)
    (hkept : ∀ place, kept' place → kept place) : Grows kept' files later where
  workingDirectory := h.workingDirectory
  directory := h.directory
  present := h.present
  content hplace := h.content (hkept _ hplace)

/-! ### Paths that go on naming their places -/

theorem follow (h : Grows kept files later) {steps : List String} {target : Place}
    (hfollow : files.follow place steps = .ok target) : later.follow place steps = .ok target := by
  induction steps generalizing place with
  | nil => exact hfollow
  | cons step rest ih =>
    rw [FileSystem.follow] at hfollow ⊢
    split at hfollow
    · rename_i hdirectory
      rw [if_pos (isDirectoryAt_iff.2 (h.directory (isDirectoryAt_iff.1 hdirectory)))]
      split at hfollow
      · rename_i hstay
        rw [if_pos hstay]
        exact ih hfollow
      · rename_i hgo
        rw [if_neg hgo]
        split at hfollow
        · rename_i hup
          rw [if_pos hup]
          exact ih hfollow
        · rename_i hdown
          rw [if_neg hdown]
          split at hfollow
          · rename_i hpresent
            rw [if_pos (h.present hpresent)]
            exact ih hfollow
          · simp at hfollow
    · simp at hfollow

theorem start (h : Grows kept files later) (path : Path) : later.start path = files.start path := by
  rw [FileSystem.start, FileSystem.start, h.workingDirectory]

theorem locate (h : Grows kept files later) (hlocate : files.locate path = .ok place) :
    later.locate path = .ok place := by
  rw [FileSystem.locate] at hlocate ⊢
  split at hlocate
  · simp at hlocate
  · rename_i hnonempty
    rw [if_neg hnonempty, h.start]
    exact h.follow hlocate

end Grows

/-! ### What a path can name -/

/-- Where some steps lead from a place, whether or not the directories on the way are there. -/
def descend (place : Place) : List String → Place
  | [] => place
  | step :: rest =>
    if step = "" ∨ step = "." then descend place rest
    else if step = ".." then descend place.tail rest
    else descend (step :: place) rest

/-- The only place a path can name. -/
def destination (files : FileSystem) (path : Path) : Place := descend (files.start path) path.segments

theorem eq_descend_of_follow {steps : List String} {target : Place}
    (h : files.follow place steps = .ok target) : target = descend place steps := by
  induction steps generalizing place with
  | nil => exact (Except.ok.inj h).symm
  | cons step rest ih =>
    rw [follow] at h
    rw [descend]
    split at h
    · split at h
      · rename_i hstay
        rw [if_pos hstay, ih h]
      · rename_i hgo
        rw [if_neg hgo]
        split at h
        · rename_i hup
          rw [if_pos hup, ih h]
        · rename_i hdown
          rw [if_neg hdown]
          split at h
          · exact ih h
          · simp at h
    · simp at h

theorem eq_destination_of_locate (h : files.locate path = .ok place) :
    place = files.destination path := by
  rw [locate] at h
  split at h
  · simp at h
  · exact eq_descend_of_follow h

theorem Grows.destination (h : Grows kept files later) (path : Path) :
    later.destination path = files.destination path := by
  rw [FileSystem.destination, FileSystem.destination, h.start]

/-! ### Files -/

theorem segments_of_cutTarget {before : List String} {name : String}
    (hcut : cutTarget path = (before, name, false)) (hnew : isNew name = true) :
    path.segments = before ++ [name] := by
  simp only [cutTarget, Prod.mk.injEq] at hcut
  obtain ⟨hbefore, hname, hslashes⟩ := hcut
  rw [← List.reverse_reverse path.segments]
  cases hbackwards : path.segments.reverse with
  | nil =>
    rw [hbackwards] at hname
    subst hname
    exact absurd hnew (by decide)
  | cons last rest =>
    rw [hbackwards] at hbefore hname hslashes
    have hlast : ¬ last = "" := by simpa using hslashes
    rw [List.dropWhile_cons_of_neg (by simpa using hlast)] at hbefore hname
    rw [List.reverse_cons, ← hbefore, ← hname]
    rfl

theorem follow_append {first : List String} {middle : Place}
    (hfirst : files.follow place first = .ok middle) (second : List String) :
    files.follow place (first ++ second) = files.follow middle second := by
  induction first generalizing place with
  | nil =>
    obtain rfl := Except.ok.inj hfirst
    rfl
  | cons step rest ih =>
    rw [follow] at hfirst
    rw [List.cons_append, follow]
    split at hfirst
    · rename_i hdirectory
      rw [if_pos hdirectory]
      split at hfirst
      · rename_i hstay
        rw [if_pos hstay, ih hfirst]
      · rename_i hgo
        rw [if_neg hgo]
        split at hfirst
        · rename_i hup
          rw [if_pos hup, ih hfirst]
        · rename_i hdown
          rw [if_neg hdown]
          split at hfirst
          · rename_i hpresent
            rw [if_pos hpresent, ih hfirst]
          · simp at hfirst
    · simp at hfirst

theorem write_eq_ok {content : Bytes} (h : files.write path content = .ok later) :
    path.text ≠ "" ∧ ∃ before name above, path.segments = before ++ [name] ∧
      isNew name = true ∧ files.follow (files.start path) before = .ok above ∧
      files.isDirectoryAt above = true ∧ files.node? (name :: above) ≠ some .directory ∧
      later = files.put (name :: above) (.file content) := by
  obtain ⟨⟨above, name⟩, hparent, h⟩ := bind_eq_ok h
  unfold locateParent at hparent
  rcases hcut : cutTarget path with ⟨before, last, slashes⟩
  rw [hcut] at h hparent
  dsimp only at h hparent
  split at hparent
  · simp [bind, Except.bind] at hparent
  · rename_i hnonempty
    obtain ⟨parent, hfollow, hparent⟩ := bind_eq_ok hparent
    split at hparent
    · rename_i hdirectory
      obtain ⟨rfl, rfl⟩ := Prod.mk.inj (Except.ok.inj hparent)
      split at h
      · simp at h
      · rename_i hfree
        simp only [Bool.or_eq_true, Bool.not_eq_true', not_or, Bool.not_eq_false,
          Bool.not_eq_true] at hfree
        obtain ⟨⟨hnew, rfl⟩, hfile⟩ := hfree
        refine ⟨hnonempty, before, last, parent, segments_of_cutTarget hcut hnew, hnew, hfollow,
          hdirectory, fun hsome => ?_, (Except.ok.inj h).symm⟩
        rw [isDirectoryAt_iff.2 hsome] at hfile
        exact Bool.noConfusion hfile
    · simp at hparent

/-- A path leads to what its last segment names in the directory to which the others lead. -/
theorem locate_of_follow {before : List String} {name : String} {above : Place}
    (hnonempty : path.text ≠ "") (hsegments : path.segments = before ++ [name])
    (hnew : isNew name = true) (hfollow : files.follow (files.start path) before = .ok above)
    (hdirectory : files.isDirectoryAt above = true)
    (hpresent : (files.node? (name :: above)).isSome = true) :
    files.locate path = .ok (name :: above) := by
  simp only [isNew, Bool.and_eq_true, bne_iff_ne] at hnew
  rw [locate, if_neg hnonempty, hsegments, follow_append hfollow, follow, if_pos hdirectory,
    if_neg (not_or.2 hnew.1), if_neg hnew.2, if_pos hpresent, follow]

/-! ### Reading -/

theorem readText_of_node {text : String} (hlocate : files.locate path = .ok place)
    (hnode : files.node? place = some (.file (Bytes.ofText text))) :
    files.readText path = .ok text := by
  have hread : files.read path = .ok (Bytes.ofText text) := by
    unfold read
    rw [hlocate]
    simp only [bind, Except.bind, hnode]
  unfold readText
  rw [hread]
  simp only [bind, Except.bind, Bytes.text?_ofText]

/-- What is read depends on the place that is named, not on the path that names it. -/
theorem readText_congr {other : Path} (hsame : files.locate path = files.locate other) :
    files.readText path = files.readText other := by
  unfold readText read
  rw [hsame]

end BundleForge.FileSystem
