import BundleForge.Proofs.Implementation.Identifiers
import BundleForge.Proofs.Path
import BundleForge.Proofs.Run.Files
import Mathlib
/-!
# Files below the output directory

The file of a type lies below the output directory when every part of its path descends. The file name does, unless
the locale makes it absolute; the segments of the module of a bundle are taken as they are, and a manifest may
name any.
-/

namespace BundleForge

open Identifier

namespace FileSink

/-- The name of a file without its ending holds no dot, so that double dots are no part of the name. -/
theorem up_not_mem_fileName (name : String) :
    ".." ∉ (⟨toSnakeCase name ++ ".rs"⟩ : Path).segments := by
  intro hup
  rw [Path.segments, Text.segments, List.splitOn_eq_splitOnP] at hup
  obtain ⟨part, hpart, hdots⟩ := List.mem_map.1 hup
  have hchars : part = ['.', '.'] := by rw [← String.toList_ofList (l := part), hdots]; rfl
  have hcount := (Text.sublist_of_mem_splitOnP hpart).1.count_le '.'
  rw [hchars, String.toList_append, List.count_append, toSnakeCase, String.toList_ofList (l := snake name.toList),
    List.count_eq_zero_of_not_mem (dot_not_mem_snake _)] at hcount
  exact absurd hcount (by decide)

theorem isAbsolute_fileName_iff (name : String) :
    (⟨toSnakeCase name ++ ".rs"⟩ : Path).isAbsolute = true ↔ initial? name.toList = some '/' := by
  rw [Path.isAbsolute_iff, String.toList_append, List.head?_append, toSnakeCase,
    String.toList_ofList (l := snake name.toList), head?_snake]
  cases hinitial : initial? name.toList with
  | none => simp
  | some c =>
    rw [Option.map_some, Option.some_or, Option.some_inj, Option.some_inj]
    exact ⟨fun h => eq_of_toLower_eq (by decide) h, fun h => by rw [h]; rfl⟩

theorem descends_fileName_iff (name : String) :
    (⟨toSnakeCase name ++ ".rs"⟩ : Path).Descends ↔ initial? name.toList ≠ some '/' := by
  rw [ne_eq, ← isAbsolute_fileName_iff, Bool.not_eq_true]
  exact ⟨fun h => h.relative, fun h => ⟨h, up_not_mem_fileName name⟩⟩

theorem steps_fileName_ne_nil (name : String) : Path.steps ⟨toSnakeCase name ++ ".rs"⟩ ≠ [] := by
  obtain ⟨last, hlast⟩ := Option.ne_none_iff_exists'.1
    (List.getLast?_eq_none_iff.not.2 (Path.segments_ne_nil ⟨toSnakeCase name ++ ".rs"⟩))
  have hending : ".rs".toList <:+ last.toList := by
    refine Path.suffix_segment (by decide) ?_ hlast
    rw [String.toList_append]
    exact List.suffix_append _ _
  have hnamed : ∀ silent ∈ ["", "."], last ≠ silent := by
    rintro silent hsilent rfl
    have hlength := hending.length_le
    simp only [List.mem_cons, List.not_mem_nil, or_false] at hsilent
    rcases hsilent with rfl | rfl
    · exact absurd hlength (by decide)
    · exact absurd hlength (by decide)
  obtain ⟨component, hcomponent⟩ : ∃ component, Path.component? last = some component := by
    rw [Path.component?, if_neg (not_or.2 ⟨hnamed "" (by decide), hnamed "." (by decide)⟩)]
    split
    · exact ⟨_, rfl⟩
    · exact ⟨_, rfl⟩
  exact List.ne_nil_of_mem (List.mem_filterMap.2 ⟨last, List.mem_of_getLast? hlast, hcomponent⟩)

theorem descends_of_isAnchor {segment : String} (h : isAnchor segment = true) : (⟨segment⟩ : Path).Descends := by
  rw [isAnchor] at h
  simp only [Bool.or_eq_true, beq_iff_eq] at h
  rcases h with ((rfl | rfl) | rfl) | rfl
  all_goals exact ⟨by decide, by decide⟩

theorem below_pathOf_iff (claim : Claim) :
    (∀ outDir : Path, outDir.Below (pathOf outDir claim)) ↔
      (∀ segment ∈ moduleSegments claim.modulePath.toList, (⟨String.ofList segment⟩ : Path).Descends) ∧
        initial? claim.simpleName.toList ≠ some '/' := by
  have hfile : ∃ segment ∈ targetSegments claim, Path.steps ⟨segment⟩ ≠ [] :=
    ⟨_, List.mem_append_right _ List.mem_cons_self, steps_fileName_ne_nil _⟩
  refine (Path.below_foldl_join_iff hfile).trans ?_
  rw [targetSegments, List.forall_mem_append, List.forall_mem_singleton, descends_fileName_iff]
  refine and_congr_left' ⟨fun h segment hmem => ?_, fun h segment hmem => ?_⟩
  · by_cases hanchor : isAnchor (String.ofList segment) = true
    · exact descends_of_isAnchor hanchor
    · exact h _ (List.mem_filter.2 ⟨List.mem_map_of_mem hmem, by simpa using hanchor⟩)
  · obtain ⟨chars, hchars, rfl⟩ := List.mem_map.1 (List.mem_of_mem_filter hmem)
    exact h chars hchars

theorem readText_of_commit {sink : FileSink} {files later : FileSystem} {bundle : Bundle} {locale : Option String}
    {source : String} {path : Option Path}
    (h : sink.commit files (Pass.wanted bundle locale) source = (.ok path, later)) :
    path = some (pathOf sink.outDir (Pass.wanted bundle locale)) ∧
      later.readText (pathOf sink.outDir (Pass.wanted bundle locale)) = .ok source := by
  obtain ⟨hpath, name, above, -, hlocate, hnode, -⟩ := written_of_commit h
  exact ⟨hpath, FileSystem.readText_of_node hlocate hnode⟩

end FileSink

namespace Bundle

variable {bundle : Bundle} {locale : Option String}

theorem eq_underscore {c : Char} (h : canContinue c = true) (hsep : isSeparator c = true) : c = '_' := by
  rw [isSeparator, Bool.or_eq_true, Bool.or_eq_true, beq_iff_eq, beq_iff_eq, beq_iff_eq] at hsep
  rcases hsep with (rfl | rfl) | rfl
  · rfl
  · exact absurd h (by decide)
  · exact absurd h (by decide)

theorem initial?_joinedName (hnamed : bundle.WellNamed) :
    (initial? bundle.joinedName.toList = none ↔ ∀ c ∈ bundle.joinedName.toList, c = '_') ∧
      initial? bundle.joinedName.toList ≠ some '/' := by
  have hbody := hnamed.fits_joinedName.body
  constructor
  · rw [initial?_eq_none_iff]
    exact ⟨fun h c hc => eq_underscore (hbody c hc) (h c hc), fun h c hc => by rw [h c hc]; rfl⟩
  · intro hinitial
    have hmem : '/' ∈ bundle.joinedName.toList :=
      (List.dropWhile_sublist isSeparator).subset (List.mem_of_head? hinitial)
    exact absurd (hbody _ hmem) (by decide)

/-- The name of an implementation has the initial of its bundle, or that of the locale if the bundle has none. -/
theorem initial?_implementation_iff (hnamed : bundle.WellNamed) :
    initial? (bundle.implementation locale).toList = some '/' ↔
      (∀ c ∈ bundle.joinedName.toList, c = '_') ∧ ∃ text ∈ locale, initial? text.toList = some '/' := by
  obtain ⟨hnone, hslash⟩ := initial?_joinedName hnamed
  rw [← hnone]
  have himpl : initial? "Impl".toList = some 'I' := by decide
  have hseparator : initial? "_".toList = none := by decide
  have himplementation : initial? (bundle.implementation locale).toList =
      ((initial? bundle.joinedName.toList).or (locale.bind fun text => initial? text.toList)).or (some 'I') := by
    cases locale with
    | none =>
      show initial? (bundle.joinedName ++ "Impl").toList = _
      rw [String.toList_append, initial?_append, himpl, Option.bind_none, Option.or_none]
    | some text =>
      show initial? (bundle.joinedName ++ "_" ++ text ++ "_" ++ "Impl").toList = _
      rw [String.toList_append, String.toList_append, String.toList_append, String.toList_append, initial?_append,
        initial?_append, initial?_append, initial?_append, hseparator, himpl, Option.or_none, Option.or_none]
      rfl
  rw [himplementation]
  cases hinitial : initial? bundle.joinedName.toList with
  | some c =>
    rw [hinitial] at hslash
    rw [Option.some_or, Option.some_or]
    exact ⟨fun h => absurd h hslash, fun h => absurd h.1 (by simp)⟩
  | none =>
    rw [Option.none_or, and_iff_right rfl]
    cases locale with
    | none => simp
    | some text =>
      rw [Option.bind_some]
      cases htext : initial? text.toList with
      | none => simp [htext]
      | some c => simp [htext]

end Bundle

namespace FileSink

/-- The files of a bundle of an accepted manifest lie below every output directory exactly when the segments of its
module descend and its own name leaves no room for a locale that makes the path absolute; and a successful commit has
written the source there. -/
theorem below_iff_of_parse {text : String} {manifest : Manifest} {bundle : Bundle}
    (hparse : Manifest.parse text = .ok manifest) (hmem : bundle ∈ manifest.bundles.values) (locale : Option String) :
    ((∀ outDir : Path, outDir.Below (pathOf outDir (Pass.wanted bundle locale))) ↔
      (∀ segment ∈ moduleSegments bundle.name.modulePath.toList, (⟨String.ofList segment⟩ : Path).Descends) ∧
        ¬ ((∀ c ∈ bundle.joinedName.toList, c = '_') ∧ ∃ text ∈ locale, initial? text.toList = some '/')) ∧
    ∀ (sink : FileSink) files source path later,
      sink.commit files (Pass.wanted bundle locale) source = (.ok path, later) →
        path = some (pathOf sink.outDir (Pass.wanted bundle locale)) ∧
          later.readText (pathOf sink.outDir (Pass.wanted bundle locale)) = .ok source := by
  obtain ⟨declarations, haccepted⟩ := Manifest.exists_declarations_of_parse hparse
  have hnamed := Manifest.wellNamed_of_mem haccepted hmem
  refine ⟨?_, fun sink files source path later hcommit => readText_of_commit hcommit⟩
  rw [below_pathOf_iff, ← Bundle.initial?_implementation_iff hnamed]
  rfl

/-- A bundle whose module leads up from the output directory. -/
def climbingText : String := "[[bundles]]\nname = \"crate::..::Icons\"\n"

def climbing : Bundle where
  name := ⟨"crate::..::Icons"⟩

@[irreducible]
def climbingManifest : Manifest :=
  (Manifest.ofDeclarations ⟨[], [climbing]⟩).toOption.getD ⟨.builtin, .empty⟩

private theorem parse_climbingText : Manifest.parse climbingText = .ok climbingManifest := by
  have hread : Toml.read Declarations.decode climbingText = .ok ⟨[], [climbing]⟩ := by decide +kernel
  unfold climbingManifest
  exact Manifest.parse_of_isSome hread (by decide +kernel) _

/-- Its source is not written below the output directory, but beside it. -/
theorem below_iff_of_parse_climbing :
    (¬ ∀ outDir : Path, outDir.Below (pathOf outDir (Pass.wanted climbing none))) ∧
    pathOf ⟨"/out"⟩ (Pass.wanted climbing none) = ⟨"/out/../icons_impl.rs"⟩ ∧
    (((⟨⟨"/out"⟩, .empty⟩ : FileSink).commit .empty (Pass.wanted climbing none) "source").2.readText
      ⟨"/icons_impl.rs"⟩).toOption = some "source" := by
  have hmem : climbing ∈ climbingManifest.bundles.values := by decide +kernel
  obtain ⟨hiff, -⟩ := below_iff_of_parse parse_climbingText hmem none
  refine ⟨fun hbelow => ?_, by decide +kernel, by decide +kernel⟩
  have hdescends := (hiff.1 hbelow).1 ['.', '.'] (by decide +kernel)
  exact absurd hdescends.noUp (by decide)

end FileSink

end BundleForge
