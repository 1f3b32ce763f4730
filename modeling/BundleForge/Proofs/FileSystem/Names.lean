import BundleForge.Proofs.FileSystem
import BundleForge.Proofs.Path
/-!
# Where the components of a path lead

What a path can name is decided by its components, one after the other. An entry of a directory that is
joined to a path adds one name to the place of that path, so paths that are put together from one
directory and different entries never name one place.
-/

namespace BundleForge

open FileSystem (isNew descend destination)

/-- Where a component leads from a place; a root and a single dot stand in front of a path only. -/
def Place.enter (place : Place) : Path.Component → Place
  | .root => []
  | .here => place
  | .up => place.tail
  | .name text => text :: place

namespace FileSystem

variable {files : FileSystem}

theorem descend_eq (place : Place) (segments : List String) :
    descend place segments = (segments.filterMap Path.component?).foldl Place.enter place := by
  induction segments generalizing place with
  | nil => rfl
  | cons segment rest ih =>
    rw [descend, List.filterMap_cons, Path.component?]
    split
    · exact ih place
    · split
      · exact ih place.tail
      · exact ih (segment :: place)

theorem destination_eq (files : FileSystem) (path : Path) :
    files.destination path = path.components.foldl Place.enter files.workingDirectory := by
  rw [destination, descend_eq, start, Path.components_eq, Path.opening, List.foldl_append]
  split
  · rfl
  · split <;> rfl

theorem destination_congr {path other : Path} (h : path.components = other.components) :
    files.destination path = files.destination other := by
  rw [destination_eq, destination_eq, h]

/-- A relative path that is joined to a directory leads on from the place of the directory. -/
theorem destination_join (files : FileSystem) (dir : Path) {other : Path} (hother : other.isAbsolute = false)
    (hopening : other.opening = []) :
    files.destination (dir.join other) = descend (files.destination dir) other.segments := by
  rw [destination_eq, destination_eq, Path.components_join_eq dir hother, hopening, ite_self, List.nil_append,
    List.foldl_append, descend_eq]
  rfl

end FileSystem

namespace Path

/-- A segment that names an entry of whatever directory it is joined to. -/
structure IsEntry (segment : String) : Prop where
  new : isNew segment = true
  flat : '/' ∉ segment.toList

variable {segment : String} {entries others : List String}

namespace IsEntry

variable (h : IsEntry segment)
include h

theorem segments_eq : (⟨segment⟩ : Path).segments = [segment] := by
  rw [Path.segments, Text.segments, List.splitOn_eq_singleton h.flat, List.map_singleton,
    String.ofList_toList]

theorem isAbsolute_eq_false : (⟨segment⟩ : Path).isAbsolute = false := by
  rw [← Bool.not_eq_true, isAbsolute_iff]
  exact fun hhead => h.flat (List.mem_of_head? hhead)

theorem ne_dots : segment ≠ "" ∧ segment ≠ "." ∧ segment ≠ ".." := by
  have hnew := h.new
  simp only [isNew, Bool.and_eq_true, bne_iff_ne] at hnew
  exact ⟨hnew.1.1, hnew.1.2, hnew.2⟩

theorem steps_eq : (⟨segment⟩ : Path).steps = [.name segment] := by
  obtain ⟨hempty, hdot, hdots⟩ := h.ne_dots
  rw [steps, h.segments_eq, List.filterMap_cons, component?, if_neg (not_or.2 ⟨hempty, hdot⟩),
    if_neg hdots, List.filterMap_nil]

theorem opening_eq : (⟨segment⟩ : Path).opening = [] := by
  rw [opening, if_neg (Bool.eq_false_iff.1 h.isAbsolute_eq_false), h.segments_eq, List.head?_cons,
    if_neg fun hdot => h.ne_dots.2.1 (Option.some.inj hdot)]

theorem components_join (dir : Path) :
    (dir.join ⟨segment⟩).components = dir.components ++ [.name segment] := by
  rw [components_join_eq dir h.isAbsolute_eq_false, h.opening_eq, ite_self, h.steps_eq, List.nil_append]

theorem destination_join (files : FileSystem) (dir : Path) :
    files.destination (dir.join ⟨segment⟩) = segment :: files.destination dir := by
  rw [FileSystem.destination_eq, FileSystem.destination_eq, h.components_join, List.foldl_append]
  rfl

end IsEntry

theorem destination_foldl_join (h : ∀ segment ∈ entries, IsEntry segment) (files : FileSystem) (dir : Path) :
    files.destination (entries.foldl (fun path segment => path.join ⟨segment⟩) dir) =
      entries.reverse ++ files.destination dir := by
  induction entries generalizing dir with
  | nil => rfl
  | cons segment rest ih =>
    rw [List.forall_mem_cons] at h
    rw [List.foldl_cons, ih h.2, h.1.destination_join, List.reverse_cons, List.append_assoc,
      List.singleton_append]

theorem destination_foldl_join_inj (hentries : ∀ segment ∈ entries, IsEntry segment)
    (hothers : ∀ segment ∈ others, IsEntry segment) {files : FileSystem} {dir : Path}
    (h : files.destination (entries.foldl (fun path segment => path.join ⟨segment⟩) dir) =
      files.destination (others.foldl (fun path segment => path.join ⟨segment⟩) dir)) :
    entries = others := by
  rw [destination_foldl_join hentries, destination_foldl_join hothers, List.append_left_inj,
    List.reverse_inj] at h
  exact h

end Path

end BundleForge
