import BundleForge.Path
import BundleForge.Proofs.Text
import Mathlib
/-!
# Joined paths and their components

A relative path that is joined to a directory adds its own components to those of the directory; an absolute one
forgets the directory. A path put together from a directory and some segments therefore lies below the directory,
whichever it is, exactly when none of the segments is absolute and none has double dots.
-/

namespace BundleForge.Path

/-- The components of a path, but for the root or the single dot in front. -/
def steps (p : Path) : List Component := p.segments.filterMap component?

/-- The root in front of an absolute path, or the single dot in front of a relative one. -/
def opening (p : Path) : List Component :=
  if p.isAbsolute then [.root] else if p.segments.head? = some "." then [.here] else []

/-- A path has a directory as a proper part in front, and does not lead up from there. -/
def Below (dir path : Path) : Prop :=
  ∃ rest, rest ≠ [] ∧ path.components = dir.components ++ rest ∧ .up ∉ rest

/-- A relative path that does not lead up. -/
structure Descends (p : Path) : Prop where
  relative : p.isAbsolute = false
  noUp : ".." ∉ p.segments

variable {dir other : Path}

theorem components_eq (p : Path) : p.components = p.opening ++ p.steps := by
  rw [components, opening]
  split
  · rfl
  · split <;> rfl

theorem up_not_mem_opening (p : Path) : .up ∉ p.opening := by
  rw [opening]
  split
  · decide
  · split <;> decide

theorem component?_eq_up_iff {segment : String} : component? segment = some .up ↔ segment = ".." := by
  rw [component?]
  split
  · rename_i hsilent
    constructor
    · intro h
      exact absurd h (by simp)
    · rintro rfl
      exact absurd hsilent (by decide)
  · split
    · rename_i hup
      exact ⟨fun _ => hup, fun _ => rfl⟩
    · rename_i hname
      exact ⟨fun h => absurd h (by simp), fun hup => absurd hup hname⟩

theorem up_mem_steps_iff (p : Path) : .up ∈ p.steps ↔ ".." ∈ p.segments := by
  rw [steps, List.mem_filterMap]
  simp only [component?_eq_up_iff, exists_eq_right]

theorem isAbsolute_iff (p : Path) : p.isAbsolute = true ↔ p.text.toList.head? = some '/' := by
  rw [isAbsolute, Text.beginsWith, List.isPrefixOf_iff_prefix, show "/".toList = ['/'] from rfl]
  cases p.text.toList with
  | nil => simp
  | cons first rest =>
    rw [List.cons_prefix_cons, List.head?_cons, Option.some_inj, eq_comm (a := '/')]
    exact and_iff_left (List.nil_prefix)

theorem isAbsolute_congr {p other : Path} (h : p.text.toList.head? = other.text.toList.head?) :
    p.isAbsolute = other.isAbsolute := by
  rw [Bool.eq_iff_iff, isAbsolute_iff, isAbsolute_iff, h]

/-! ### Joining -/

theorem segments_slash (before after : String) :
    segments ⟨before ++ "/" ++ after⟩ = segments ⟨before⟩ ++ segments ⟨after⟩ := by
  have hchars : (before ++ "/" ++ after).toList = before.toList ++ '/' :: after.toList := by
    rw [String.toList_append, String.toList_append, List.append_assoc]
    rfl
  rw [segments, Text.segments, hchars, List.splitOn_append_cons_self, List.map_append]
  rfl

theorem steps_slash (before after : String) :
    steps ⟨before ++ "/" ++ after⟩ = steps ⟨before⟩ ++ steps ⟨after⟩ := by
  rw [steps, segments_slash, List.filterMap_append]
  rfl

theorem opening_congr {p other : Path} (htext : p.text.toList.head? = other.text.toList.head?)
    (hsegments : p.segments.head? = other.segments.head?) : p.opening = other.opening := by
  rw [opening, opening, isAbsolute_congr htext, hsegments]

theorem segments_ne_nil (p : Path) : p.segments ≠ [] := by
  rw [segments, Text.segments, ne_eq, List.map_eq_nil_iff]
  exact List.splitOn_ne_nil _ _

theorem head?_segments_slash (before after : String) :
    (segments ⟨before ++ "/" ++ after⟩).head? = (segments ⟨before⟩).head? := by
  rw [segments_slash, List.head?_append_of_ne_nil _ (segments_ne_nil _)]

theorem exists_eq_slash (h : Text.beginsWith "/" (String.ofList dir.text.toList.reverse) = true) :
    ∃ before, dir = ⟨before ++ "/" ++ ""⟩ := by
  rw [Text.beginsWith, String.toList_ofList (l := dir.text.toList.reverse), List.isPrefixOf_iff_prefix] at h
  obtain ⟨rest, hrest⟩ := h
  have hchars : dir.text.toList = rest.reverse ++ "/".toList := by
    rw [← List.reverse_reverse dir.text.toList, ← hrest, List.reverse_append]
    rfl
  have htext : dir.text = String.ofList rest.reverse ++ "/" := by
    rw [← String.toList_inj, hchars, String.toList_append, String.toList_ofList (l := rest.reverse)]
  refine ⟨String.ofList rest.reverse, ?_⟩
  rw [String.append_empty, ← htext]

private theorem head?_append_text (hdir : dir.text ≠ "") (rest : String) :
    (dir.text ++ rest).toList.head? = dir.text.toList.head? := by
  rw [String.toList_append, List.head?_append_of_ne_nil _ fun hnil => hdir (String.toList_eq_nil_iff.1 hnil)]

/-- What a relative path adds to a directory: its steps, and the single dot in front of it if there is no directory. -/
theorem components_join_eq (dir : Path) (hother : other.isAbsolute = false) :
    (dir.join other).components =
      dir.components ++ ((if dir.text = "" then other.opening else []) ++ other.steps) := by
  by_cases hempty : dir.text = ""
  · have hjoin : dir.join other = other := by
      rw [join, if_neg (by rw [hother]; decide), if_pos (.inl hempty), hempty, String.empty_append]
    have hdir : dir.components = [] := by
      obtain ⟨text⟩ := dir
      obtain rfl : text = "" := hempty
      decide
    rw [if_pos hempty, hjoin, hdir, components_eq, List.nil_append]
  · rw [if_neg hempty, List.nil_append, components_eq, components_eq, List.append_assoc]
    have hhead := head?_append_text hempty
    by_cases hslash : Text.beginsWith "/" (String.ofList dir.text.toList.reverse) = true
    · have hjoin : dir.join other = ⟨dir.text ++ other.text⟩ := by
        rw [join, if_neg (by rw [hother]; decide), if_pos (.inr hslash)]
      rw [hjoin]
      obtain ⟨before, rfl⟩ := exists_eq_slash hslash
      rw [String.append_empty] at hhead ⊢
      have hsteps : steps ⟨before ++ "/"⟩ = steps ⟨before⟩ := by
        have hslashed := steps_slash before ""
        rw [String.append_empty] at hslashed
        exact hslashed.trans (List.append_nil _)
      have hsegments : (segments ⟨before ++ "/"⟩).head? = (segments ⟨before⟩).head? := by
        have hslashed := head?_segments_slash before ""
        rwa [String.append_empty] at hslashed
      rw [opening_congr (hhead _) ((head?_segments_slash _ _).trans hsegments.symm), steps_slash, hsteps]
    · have hjoin : dir.join other = ⟨dir.text ++ "/" ++ other.text⟩ := by
        rw [join, if_neg (by rw [hother]; decide), if_neg (not_or.2 ⟨hempty, hslash⟩)]
      have htext := hhead ("/" ++ other.text)
      rw [← String.append_assoc] at htext
      rw [hjoin, opening_congr htext (head?_segments_slash _ _), steps_slash]

theorem components_join (dir : Path) (hother : other.isAbsolute = false) :
    ∃ dots, .up ∉ dots ∧ (dir.join other).components = dir.components ++ (dots ++ other.steps) := by
  refine ⟨_, ?_, components_join_eq dir hother⟩
  split
  · exact other.up_not_mem_opening
  · exact List.not_mem_nil

/-- The segments of a directory that stay in front of what is joined to it: all but an empty one at the end. -/
def stem (dir : Path) : List String :=
  if dir.text = "" ∨ Text.beginsWith "/" (String.ofList dir.text.toList.reverse) then dir.segments.dropLast
  else dir.segments

theorem segments_join (dir : Path) (hother : other.isAbsolute = false) :
    (dir.join other).segments = dir.stem ++ other.segments := by
  rw [join, if_neg (by rw [hother]; decide), stem]
  split
  · rename_i hend
    rcases hend with hempty | hslash
    · obtain ⟨text⟩ := dir
      obtain rfl : text = "" := hempty
      rw [String.empty_append]
      rfl
    · obtain ⟨before, rfl⟩ := exists_eq_slash hslash
      have hdir : (segments ⟨before ++ "/" ++ ""⟩).dropLast = segments ⟨before⟩ := by
        rw [segments_slash]
        exact List.dropLast_concat
      rw [hdir, String.append_empty, segments_slash]
  · exact segments_slash _ _

theorem segments_eq_stem (hdir : dir.text ≠ "") : dir.segments = dir.stem ∨ dir.segments = dir.stem ++ [""] := by
  rw [stem]
  split
  · rename_i hend
    obtain ⟨before, rfl⟩ := exists_eq_slash (hend.resolve_left hdir)
    rw [segments_slash]
    exact Or.inr (congrArg (· ++ [""]) List.dropLast_concat.symm)
  · exact Or.inl rfl

theorem isAbsolute_join (dir : Path) (hother : other.isAbsolute = false) :
    (dir.join other).isAbsolute = dir.isAbsolute := by
  rw [join, if_neg (by rw [hother]; decide)]
  by_cases hempty : dir.text = ""
  · obtain ⟨text⟩ := dir
    obtain rfl : text = "" := hempty
    rw [if_pos (.inl rfl), String.empty_append, hother]
    rfl
  · split
    · exact isAbsolute_congr (head?_append_text hempty _)
    · rw [String.append_assoc]
      exact isAbsolute_congr (head?_append_text hempty _)

/-! ### Paths below a directory -/

variable {segments : List String}

theorem join_of_isAbsolute (h : other.isAbsolute = true) (dir : Path) : dir.join other = other := by
  rw [join, if_pos h]

theorem foldl_join_eq {segment : String} (hmem : segment ∈ segments)
    (habsolute : (⟨segment⟩ : Path).isAbsolute = true) (dir other : Path) :
    segments.foldl (fun path segment => path.join ⟨segment⟩) dir =
      segments.foldl (fun path segment => path.join ⟨segment⟩) other := by
  induction segments generalizing dir other with
  | nil => exact absurd hmem List.not_mem_nil
  | cons first rest ih =>
    rw [List.foldl_cons, List.foldl_cons]
    rcases List.mem_cons.1 hmem with rfl | hrest
    · rw [join_of_isAbsolute habsolute, join_of_isAbsolute habsolute]
    · exact ih hrest _ _

/-- Relative segments add their steps to a directory, and dots in front at the most. -/
theorem components_foldl_join (hrelative : ∀ segment ∈ segments, (⟨segment⟩ : Path).isAbsolute = false)
    (dir : Path) :
    ∃ rest, (segments.foldl (fun path segment => path.join ⟨segment⟩) dir).components = dir.components ++ rest ∧
      (.up ∈ rest ↔ ∃ segment ∈ segments, .up ∈ steps ⟨segment⟩) ∧
      ((∃ segment ∈ segments, steps ⟨segment⟩ ≠ []) → rest ≠ []) := by
  induction segments generalizing dir with
  | nil => exact ⟨[], (List.append_nil _).symm, by simp, by simp⟩
  | cons first others ih =>
    rw [List.forall_mem_cons] at hrelative
    obtain ⟨dots, hdots, hjoin⟩ := components_join dir hrelative.1
    obtain ⟨rest, hrest, hup, hne⟩ := ih hrelative.2 (dir.join ⟨first⟩)
    refine ⟨dots ++ steps ⟨first⟩ ++ rest, ?_, ?_, ?_⟩
    · rw [List.foldl_cons, hrest, hjoin, List.append_assoc]
    · rw [List.mem_append, List.mem_append, or_iff_right hdots, hup, List.exists_mem_cons_iff]
    · rw [List.exists_mem_cons_iff]
      rintro (hfirst | hothers)
      · exact fun hnil => hfirst (List.append_eq_nil_iff.1 (List.append_eq_nil_iff.1 hnil).1).2
      · exact fun hnil => hne hothers (List.append_eq_nil_iff.1 hnil).2

/-- A path that is put together from any directory and some segments, one of which names something, lies below the
directory exactly when all segments descend. -/
theorem below_foldl_join_iff (hnamed : ∃ segment ∈ segments, steps ⟨segment⟩ ≠ []) :
    (∀ dir : Path, dir.Below (segments.foldl (fun path segment => path.join ⟨segment⟩) dir)) ↔
      ∀ segment ∈ segments, (⟨segment⟩ : Path).Descends := by
  constructor
  · intro hbelow
    have hrelative : ∀ segment ∈ segments, (⟨segment⟩ : Path).isAbsolute = false := by
      intro segment hmem
      by_contra habsolute
      -- The path would begin with each of two directories that have nothing in common.
      have hsame := foldl_join_eq hmem (Bool.not_eq_false _ ▸ habsolute) ⟨"x"⟩ ⟨"y"⟩
      obtain ⟨first, -, hfirst, -⟩ := hbelow ⟨"x"⟩
      obtain ⟨second, -, hsecond, -⟩ := hbelow ⟨"y"⟩
      rw [hsame, hsecond, show components ⟨"x"⟩ = [.name "x"] by decide,
        show components ⟨"y"⟩ = [.name "y"] by decide] at hfirst
      have hname := (List.cons.inj hfirst).1
      exact absurd hname (by decide)
    intro segment hmem
    refine ⟨hrelative segment hmem, fun hup => ?_⟩
    obtain ⟨rest, hcomponents, hrest, -⟩ := components_foldl_join hrelative ⟨""⟩
    obtain ⟨other, -, hother, hnoUp⟩ := hbelow ⟨""⟩
    rw [hcomponents] at hother
    rw [← List.append_cancel_left hother] at hnoUp
    exact hnoUp (hrest.2 ⟨segment, hmem, (up_mem_steps_iff _).2 hup⟩)
  · intro hdescends dir
    obtain ⟨rest, hcomponents, hrest, hne⟩ :=
      components_foldl_join (fun segment hmem => (hdescends segment hmem).relative) dir
    refine ⟨rest, hne hnamed, hcomponents, fun hup => ?_⟩
    obtain ⟨segment, hmem, hsegment⟩ := hrest.1 hup
    exact (hdescends segment hmem).noUp ((up_mem_steps_iff _).1 hsegment)

end BundleForge.Path
