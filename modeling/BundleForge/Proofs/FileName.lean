import BundleForge.Bundle
import BundleForge.Deployment
import BundleForge.Proofs.Identifier
import BundleForge.Sink
import Mathlib
/-!
# Names of generated files

The file of a generated type is named after its implementation, so its name ends in `l.rs`. The name of a
deployed payload is made of hexadecimal digits and an extension, so it never ends so: a payload does not
replace a generated source, wherever the two are put.
-/

namespace BundleForge

/-- How the name of the file of every generated type ends. -/
def sourceEnding : List Char := ['l', '.', 'r', 's']

namespace Identifier

theorem exists_words_append (name : List Char) {c : Char} (hc : isSeparator c = false) :
    ∃ others last, words (name ++ [c]) = others ++ [last ++ [c.toLower]] := by
  have hending : ∀ d ∈ [c], isSeparator d = false := by simpa using hc
  obtain ⟨parts, last, hparts⟩ := Text.exists_splitOnP_append hending name
  let runs := (last ++ [c]).splitBy fun previous c => !startsWord previous c
  have hruns : runs ≠ [] := List.splitBy_ne_nil.2 (List.concat_ne_nil _ _)
  have hrun : runs.getLast hruns ≠ [] := List.ne_nil_of_mem_splitBy (List.getLast_mem hruns)
  have hlast : (runs.getLast hruns).getLast hrun = c := by
    rw [List.getLast_getLast_splitBy _ (List.concat_ne_nil _ _), List.getLast_concat]
  refine ⟨(parts.flatMap fun part => (part.splitBy fun previous c => !startsWord previous c).map
    (·.map Char.toLower)) ++ runs.dropLast.map (·.map Char.toLower),
    (runs.getLast hruns).dropLast.map Char.toLower, ?_⟩
  rw [words, hparts, List.flatMap_append, List.flatMap_singleton, List.append_assoc]
  refine congrArg _ ?_
  show runs.map _ = _
  conv_lhs => rw [← List.dropLast_append_getLast hruns, ← List.dropLast_append_getLast hrun, hlast]
  simp

theorem suffix_snake (name : List Char) {c : Char} (hc : isSeparator c = false) :
    [c.toLower] <:+ snake (name ++ [c]) := by
  obtain ⟨others, last, hwords⟩ := exists_words_append name hc
  rw [snake, hwords]
  exact (List.suffix_append _ _).trans (Text.suffix_intercalate _ _ _)

end Identifier

/-! ### Payloads -/

theorem not_mem_hex {c : Char} (hdigit : ∀ n < 16, Nat.digitChar n ≠ c) (bytes : Bytes) :
    c ∉ (Bytes.hex bytes).toList := by
  rw [Bytes.hex, String.toList_ofList]
  intro hmem
  obtain ⟨byte, -, hmem⟩ := List.mem_flatMap.1 hmem
  have hbyte := byte.toNat_lt
  simp only [List.mem_cons, List.not_mem_nil, or_false] at hmem
  rcases hmem with hhigh | hlow
  · exact hdigit _ (by omega) hhigh.symm
  · exact hdigit _ (by omega) hlow.symm

namespace FileName

theorem not_mem_extension {fileName extension : String}
    (h : extension? fileName = some extension) : '.' ∉ extension.toList := by
  obtain ⟨⟨before, after⟩, hcut, rfl⟩ := Option.map_eq_some_iff.1 h
  rw [String.toList_ofList]
  intro hmem
  obtain ⟨c, hc, hdot⟩ := List.mem_map.1 hmem
  exact Text.not_mem_of_cutLast? hcut (Identifier.eq_of_toLower_eq (by decide) hdot ▸ hc)

end FileName

namespace Deployment

theorem exists_stem (data : Bytes) : ∃ digits digit,
    (Bytes.hex ((Sha256.digest data).take 16)).toList = digits ++ [digit] ∧
      digit ≠ 'l' ∧ digit ≠ 's' := by
  have hnonempty : (Bytes.hex ((Sha256.digest data).take 16)).toList ≠ [] := by
    obtain ⟨first, rest, hdigest⟩ : ∃ first rest, (Sha256.digest data).take 16 = first :: rest :=
      ⟨_, _, rfl⟩
    rw [hdigest, Bytes.hex, String.toList_ofList]
    exact List.cons_ne_nil _ _
  have hsplit := List.dropLast_append_getLast hnonempty
  have hlast := List.getLast_mem hnonempty
  refine ⟨_, _, hsplit.symm, fun hl => ?_, fun hs => ?_⟩
  · exact not_mem_hex (by decide) _ (hl ▸ hlast)
  · exact not_mem_hex (by decide) _ (hs ▸ hlast)

theorem not_suffix_hashedName (fileName : String) (data : Bytes) (dir : List Char) :
    ¬ sourceEnding <:+ dir ++ (hashedName fileName data).toList := by
  obtain ⟨digits, digit, hstem, hl, hs⟩ := exists_stem data
  have hbare : ¬ sourceEnding <:+ dir ++ (Bytes.hex ((Sha256.digest data).take 16)).toList := by
    rintro ⟨before, hsuffix⟩
    rw [hstem, ← List.append_assoc] at hsuffix
    have hlast : 's' = digit := by
      simpa [sourceEnding, List.getLast?_append] using congrArg List.getLast? hsuffix
    exact hs hlast.symm
  unfold hashedName
  dsimp only
  split
  · exact hbare
  · exact hbare
  · rename_i extension hnonempty hextension
    rintro ⟨before, hsuffix⟩
    rw [String.toList_append, String.toList_append, hstem] at hsuffix
    -- The last dot is that before the extension, and in front of it stands a digit of the hash.
    have hcut : (before ++ ['l']) ++ '.' :: ['r', 's'] =
        (dir ++ digits ++ [digit]) ++ '.' :: extension.toList := by
      simpa [sourceEnding] using hsuffix
    obtain ⟨hdigit, -⟩ :=
      Text.append_cons_inj (by decide) (FileName.not_mem_extension hextension) hcut
    have hlast : ['l'] = [digit] := List.append_inj_right' hdigit rfl
    exact hl (List.cons.inj hlast).1.symm

end Deployment

/-! ### Paths and their last segments -/

namespace Path

variable {path : Path} {name : String}

theorem suffix_join (dir other : Path) : other.text.toList <:+ (dir.join other).text.toList := by
  rw [join]
  split
  · exact List.suffix_rfl
  · split
    · rw [String.toList_append]
      exact List.suffix_append _ _
    · rw [String.toList_append]
      exact List.suffix_append _ _

theorem suffix_of_segment (hname : path.segments.getLast? = some name) :
    name.toList <:+ path.text.toList := by
  rw [segments, Text.segments, List.getLast?_map] at hname
  obtain ⟨last, hlast, rfl⟩ := Option.map_eq_some_iff.1 hname
  obtain ⟨parts, hparts⟩ := List.getLast?_eq_some_iff.1 hlast
  have htext : ['/'].intercalate (path.text.toList.splitOn '/') = path.text.toList :=
    List.intercalate_splitOn '/'
  rw [String.toList_ofList, ← htext, hparts]
  exact Text.suffix_intercalate _ _ _

theorem suffix_segment {ending : List Char} (hending : '/' ∉ ending)
    (hsuffix : ending <:+ path.text.toList) (hname : path.segments.getLast? = some name) :
    ending <:+ name.toList := by
  obtain ⟨before, htext⟩ := hsuffix
  have hsplit : ∀ c ∈ ending, (c == '/') = false := fun c hc =>
    beq_false_of_ne fun hslash => hending (hslash ▸ hc)
  obtain ⟨parts, last, hparts⟩ := Text.exists_splitOnP_append hsplit before
  rw [segments, Text.segments, ← htext, List.splitOn_eq_splitOnP, hparts, List.map_append,
    List.map_singleton, List.getLast?_concat, Option.some_inj] at hname
  rw [← hname, String.toList_ofList]
  exact List.suffix_append _ _

end Path

/-! ### Generated sources -/

theorem Bundle.suffix_implementation (bundle : Bundle) (locale : Option String) :
    ∃ before, (bundle.implementation locale).toList = before ++ ['l'] := by
  have himpl : ∀ before : String, ∃ rest, (before ++ "Impl").toList = rest ++ ['l'] := fun before =>
    ⟨before.toList ++ ['I', 'm', 'p'], by simp⟩
  cases locale with
  | none => exact himpl _
  | some locale => exact himpl _

theorem FileSink.suffix_target (sink : FileSink) (module : String) (bundle : Bundle)
    (locale : Option String) :
    sourceEnding <:+ (sink.target ⟨module, bundle.implementation locale⟩).text.toList := by
  obtain ⟨before, hname⟩ := bundle.suffix_implementation locale
  have hsnake : ['l'] <:+ Identifier.snake (bundle.implementation locale).toList := by
    rw [hname]
    exact Identifier.suffix_snake before (c := 'l') (by decide)
  rw [target, targetSegments, List.foldl_append, List.foldl_cons, List.foldl_nil]
  refine List.IsSuffix.trans ?_ (Path.suffix_join _ _)
  rw [String.toList_append, Identifier.toSnakeCase, String.toList_ofList]
  obtain ⟨snake, hl⟩ := hsnake
  exact ⟨snake, by rw [← hl]; simp [sourceEnding]⟩

end BundleForge
