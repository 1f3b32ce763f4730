import BundleForge.Proofs.Deployment
import BundleForge.Proofs.FileSystem.Reach
/-!
# Names of deployed files

The name of a deployed file begins with half the digest of its payload, spelled in hexadecimal digits, and goes
on with an extension at the most. It does not lead up from the deployment directory, so the place of the
file tells the digits.
-/

namespace BundleForge

namespace Bytes

theorem hex_inj {first second : Bytes} (h : hex first = hex second) : first = second := by
  rw [hex, hex, String.ofList_inj] at h
  have hdigit : ∀ m < 16, ∀ n < 16, Nat.digitChar m = Nat.digitChar n → m = n := by decide
  induction first generalizing second with
  | nil =>
    cases second with
    | nil => rfl
    | cons byte rest => simp at h
  | cons byte rest ih =>
    cases second with
    | nil => simp at h
    | cons other others =>
      simp only [List.flatMap_cons, List.cons_append, List.nil_append, List.cons.injEq] at h
      obtain ⟨hhigh, hlow, hrest⟩ := h
      have hbyte := byte.toNat_lt
      have hother := other.toNat_lt
      have hquotient := hdigit _ (by omega) _ (by omega) hhigh
      have hremainder := hdigit _ (by omega) _ (by omega) hlow
      rw [ih hrest, UInt8.toNat_inj.1 (show byte.toNat = other.toNat by omega)]

theorem length_hex (bytes : Bytes) : (hex bytes).toList.length = 2 * bytes.length := by
  rw [hex, String.toList_ofList]
  induction bytes with
  | nil => rfl
  | cons byte rest ih =>
    rw [List.flatMap_cons, List.length_append, ih, List.length_cons, List.length_cons, List.length_cons,
      List.length_nil]
    omega

end Bytes

namespace FileSystem

theorem exists_descend_eq {steps : List String} (hup : ".." ∉ steps) (place : Place) :
    ∃ more, descend place steps = more ++ place := by
  induction steps generalizing place with
  | nil => exact ⟨[], rfl⟩
  | cons step rest ih =>
    rw [List.mem_cons, not_or] at hup
    rw [descend, if_neg (Ne.symm hup.1)]
    split
    · exact ih hup.2 place
    · obtain ⟨more, hmore⟩ := ih hup.2 (step :: place)
      exact ⟨more ++ [step], by rw [hmore, List.append_assoc, List.singleton_append]⟩

end FileSystem

namespace Deployment

/-- What the names of the files of a payload begin with. -/
def stem (data : Bytes) : List Char := (Bytes.hex ((Sha256.digest data).take 16)).toList

theorem length_stem (data : Bytes) : (stem data).length = 32 := by
  rw [stem, Bytes.length_hex]
  rfl

theorem exists_hashedName_eq (fileName : String) (data : Bytes) : ∃ ending,
    (hashedName fileName data).toList = stem data ++ ending ∧ ending.count '.' ≤ 1 := by
  unfold hashedName
  dsimp only
  split
  · exact ⟨[], (List.append_nil _).symm, by decide⟩
  · exact ⟨[], (List.append_nil _).symm, by decide⟩
  · rename_i extension hnonempty hextension
    refine ⟨'.' :: extension.toList, ?_, ?_⟩
    · rw [String.toList_append, String.toList_append, List.append_assoc]
      rfl
    · rw [List.count_cons_self, List.count_eq_zero_of_not_mem (FileName.not_mem_extension hextension)]

theorem exists_segments_hashedName (fileName : String) (data : Bytes) : ∃ first rest,
    (⟨hashedName fileName data⟩ : Path).segments = first :: rest ∧ stem data <+: first.toList ∧
      ".." ∉ first :: rest := by
  obtain ⟨ending, hname, hdots⟩ := exists_hashedName_eq fileName data
  have hslash : '/' ∉ stem data := not_mem_hex (by decide) _
  have hdot : '.' ∉ stem data := not_mem_hex (by decide) _
  obtain ⟨first, rest, hending⟩ := List.exists_cons_of_ne_nil (List.splitOn_ne_nil '/' ending)
  have hsplit : (stem data ++ ending).splitOn '/' = (stem data ++ first) :: rest := by
    rw [Text.splitOn_append_of_not_mem hslash, hending, List.modifyHead_cons]
  have hsegments : (⟨hashedName fileName data⟩ : Path).segments =
      String.ofList (stem data ++ first) :: rest.map String.ofList := by
    rw [Path.segments, Text.segments, hname, hsplit, List.map_cons]
  refine ⟨_, _, hsegments, ?_, fun hup => ?_⟩
  · rw [String.toList_ofList (l := stem data ++ first)]
    exact List.prefix_append _ _
  · -- Double dots would be two dots of the name, which has one at the most.
    rw [← hsegments, Path.segments, Text.segments, List.splitOn_eq_splitOnP] at hup
    obtain ⟨part, hpart, hdouble⟩ := List.mem_map.1 hup
    have hchars : part = ['.', '.'] := by rw [← String.toList_ofList (l := part), hdouble]; rfl
    have hcount := (Text.sublist_of_mem_splitOnP hpart).1.count_le '.'
    rw [hchars, hname, List.count_append, List.count_eq_zero_of_not_mem hdot, Nat.zero_add] at hcount
    exact absurd (hcount.trans hdots) (by decide)

theorem isAbsolute_hashedName (fileName : String) (data : Bytes) :
    (⟨hashedName fileName data⟩ : Path).isAbsolute = false := by
  obtain ⟨ending, hname, -⟩ := exists_hashedName_eq fileName data
  have hnonempty : stem data ≠ [] := List.ne_nil_of_length_eq_add_one (length_stem data)
  rw [← Bool.not_eq_true, Path.isAbsolute_iff, hname, List.head?_append_of_ne_nil _ hnonempty]
  intro hhead
  have hslash : '/' ∉ stem data := not_mem_hex (by decide) _
  exact hslash (List.mem_of_head? hhead)

section Place

variable {dir : Path} {fileName otherName : String} {data other : Bytes} {files : FileSystem}

/-- The first name below the deployment directory on the way to a deployed file begins with the stem. -/
theorem exists_destination_eq (files : FileSystem) (dir : Path) (fileName : String) (data : Bytes) :
    ∃ more first, files.destination (payloadPath dir fileName data) =
      more ++ first :: files.destination dir ∧ stem data <+: first.toList := by
  obtain ⟨first, rest, hsegments, hstem, hup⟩ := exists_segments_hashedName fileName data
  have hlong : ∀ short : String, short.toList.length < 32 → first ≠ short := by
    rintro _ hshort rfl
    exact absurd hstem.length_le (by rw [length_stem]; exact Nat.not_le.2 hshort)
  have hopening : (⟨hashedName fileName data⟩ : Path).opening = [] := by
    rw [Path.opening, if_neg (Bool.eq_false_iff.1 (isAbsolute_hashedName fileName data)), hsegments,
      List.head?_cons, if_neg fun hdot => hlong "." (by decide) (Option.some.inj hdot)]
  have hplace : files.destination (payloadPath dir fileName data) =
      FileSystem.descend (files.destination dir) (first :: rest) := by
    rw [payloadPath, files.destination_join dir (isAbsolute_hashedName fileName data) hopening, hsegments]
  rw [List.mem_cons, not_or] at hup
  rw [FileSystem.descend, if_neg (not_or.2 ⟨hlong "" (by decide), hlong "." (by decide)⟩),
    if_neg (Ne.symm hup.1)] at hplace
  obtain ⟨more, hmore⟩ := FileSystem.exists_descend_eq hup.2 (first :: files.destination dir)
  exact ⟨more, first, hplace.trans hmore, hstem⟩

theorem digest_eq_of_destination_eq
    (h : files.destination (payloadPath dir fileName data) =
      files.destination (payloadPath dir otherName other)) :
    (Sha256.digest data).take 16 = (Sha256.digest other).take 16 := by
  obtain ⟨more, first, hplace, hstem⟩ := exists_destination_eq files dir fileName data
  obtain ⟨more', first', hplace', hstem'⟩ := exists_destination_eq files dir otherName other
  rw [hplace, hplace', List.append_cons, List.append_cons more', List.append_left_inj] at h
  have hfirst : [first] = [first'] := List.append_inj_right' h rfl
  obtain rfl := (List.cons.inj hfirst).1
  have hsame : stem data = stem other :=
    (List.prefix_of_prefix_length_le hstem hstem' (by rw [length_stem, length_stem])).eq_of_length
      (by rw [length_stem, length_stem])
  exact Bytes.hex_inj (String.toList_inj.1 hsame)

end Place

end Deployment

end BundleForge
