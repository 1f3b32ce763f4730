import BundleForge.Proofs.Search.Order
/-!
# Falling back to a shorter locale

The candidates of a locale are those of the locale without its last segment, after one more that has all
segments. So a lookup tries the name with all segments and then does what the lookup for the shorter locale
does. Each candidate is longer than the next, and the last one is the plain name: a resource without a locale
serves every locale.
-/

namespace BundleForge

namespace Locale

/-! ### Names with segments -/

/-- Puts a text into a path, before the last dot of the file name or at its end when the file name has no
dot. Dots in directories do not count. -/
inductive Inserts (text : List Char) : List Char → List Char → Prop
  | beforeDot {dirs stem extension : List Char} (whole : dirs = [] ∨ dirs.getLast? = some '/')
      (in_stem : '/' ∉ stem) (in_extension : '/' ∉ extension) (last : '.' ∉ extension) :
      Inserts text (dirs ++ (stem ++ '.' :: extension)) (dirs ++ (stem ++ text ++ '.' :: extension))
  | atEnd {dirs file : List Char} (whole : dirs = [] ∨ dirs.getLast? = some '/') (in_file : '/' ∉ file)
      (dotless : '.' ∉ file) : Inserts text (dirs ++ file) (dirs ++ (file ++ text))

variable {text path result : List Char}

theorem cutExtension_beforeDot {dirs stem extension : List Char}
    (hwhole : dirs = [] ∨ dirs.getLast? = some '/') (hstem : '/' ∉ stem) (hextension : '/' ∉ extension)
    (hlast : '.' ∉ extension) :
    cutExtension (dirs ++ (stem ++ '.' :: extension)) = (dirs ++ stem, '.' :: extension) := by
  have hslash : '/' ∉ stem ++ '.' :: extension := by simp [hstem, hextension]
  rw [cutExtension, Text.afterLast_append hwhole hslash, Text.cutLast?_append hlast]
  refine Prod.ext ?_ rfl
  show List.take _ _ = dirs ++ stem
  rw [← List.append_assoc, List.take_left']
  simp only [List.length_append, List.length_cons]
  omega

theorem cutExtension_atEnd {dirs file : List Char} (hwhole : dirs = [] ∨ dirs.getLast? = some '/')
    (hslash : '/' ∉ file) (hdotless : '.' ∉ file) : cutExtension (dirs ++ file) = (dirs ++ file, []) := by
  rw [cutExtension, Text.afterLast_append hwhole hslash, Text.cutLast?_eq_none_iff.2 hdotless]

theorem Inserts.eq_append (h : Inserts text path result) :
    result = (cutExtension path).1 ++ text ++ (cutExtension path).2 := by
  cases h with
  | beforeDot hwhole hstem hextension hlast =>
    rw [cutExtension_beforeDot hwhole hstem hextension hlast]
    simp
  | atEnd hwhole hslash hdotless =>
    rw [cutExtension_atEnd hwhole hslash hdotless]
    simp

theorem exists_inserts (text path : List Char) : ∃ result, Inserts text path result := by
  obtain ⟨dirs, hwhole, hpath, hslash⟩ := Text.exists_append_afterLast '/' path
  rw [hpath]
  cases hcut : Text.cutLast? '.' (Text.afterLast '/' path) with
  | none => exact ⟨_, .atEnd hwhole hslash (Text.cutLast?_eq_none_iff.1 hcut)⟩
  | some parts =>
    obtain ⟨stem, extension⟩ := parts
    rw [Text.eq_append_of_cutLast? hcut] at hslash ⊢
    rw [List.mem_append, List.mem_cons, not_or, not_or] at hslash
    exact ⟨_, .beforeDot hwhole hslash.1 hslash.2.2 (Text.not_mem_of_cutLast? hcut)⟩

theorem inserts_iff :
    Inserts text path result ↔ result = (cutExtension path).1 ++ text ++ (cutExtension path).2 := by
  refine ⟨Inserts.eq_append, fun heq => ?_⟩
  obtain ⟨other, hother⟩ := exists_inserts text path
  rwa [heq, ← hother.eq_append]

/-- All segments of a locale, as they stand in a name, are the locale after an underscore. -/
theorem suffix_splitOn (locale : List Char) : suffix (locale.splitOn '_') = '_' :: locale := by
  obtain ⟨first, rest, hparts⟩ := List.exists_cons_of_ne_nil (List.splitOn_ne_nil '_' locale)
  have hjoined : first ++ rest.flatMap ('_' :: ·) = locale := by
    rw [← Text.intercalate_cons, ← hparts, List.intercalate_splitOn]
  rw [hparts, suffix, List.flatMap_cons, List.cons_append, hjoined]

/-! ### The candidates -/

variable {locale : Option String}

theorem parts_of_ne_empty {locale : String} (hlocale : locale ≠ "") :
    parts (some locale) = locale.toList.splitOn '_' := if_neg hlocale

theorem toList_longer (locale segment : String) :
    (locale ++ "_" ++ segment).toList = locale.toList ++ '_' :: segment.toList := by
  rw [String.toList_append, String.toList_append, List.append_assoc]
  rfl

theorem longer_ne_empty (locale segment : String) : locale ++ "_" ++ segment ≠ "" := by
  intro hempty
  have hchars := toList_longer locale segment
  rw [hempty] at hchars
  exact absurd hchars (by simp)

theorem parts_append {locale segment : String} (hlocale : locale ≠ "") (hsegment : '_' ∉ segment.toList) :
    parts (some (locale ++ "_" ++ segment)) = parts (some locale) ++ [segment.toList] := by
  rw [parts_of_ne_empty (longer_ne_empty locale segment), parts_of_ne_empty hlocale, toList_longer,
    List.splitOn_append_cons_self, List.splitOn_eq_singleton hsegment]

theorem named_zero (path : String) (locale : Option String) : named path locale 0 = path := by
  rw [named, candidate, List.take_zero]
  show String.ofList ((cutExtension path.toList).1 ++ [] ++ (cutExtension path.toList).2) = path
  rw [List.append_nil, cutExtension_append, String.ofList_toList]

theorem inserts_named (path : String) {locale : String} (hlocale : locale ≠ "") :
    Inserts ('_' :: locale.toList) path.toList
      (named path (some locale) (parts (some locale)).length).toList := by
  rw [inserts_iff, named, String.toList_ofList, candidate, List.take_length, parts_of_ne_empty hlocale,
    suffix_splitOn]

theorem candidates_append (path : String) {locale segment : String} (hlocale : locale ≠ "")
    (hsegment : '_' ∉ segment.toList) :
    candidates path (some (locale ++ "_" ++ segment)) =
      named path (some (locale ++ "_" ++ segment)) (parts (some (locale ++ "_" ++ segment))).length ::
        candidates path (some locale) := by
  have hparts := parts_append hlocale hsegment
  have hlength : (parts (some (locale ++ "_" ++ segment))).length = (parts (some locale)).length + 1 := by
    rw [hparts, List.length_append, List.length_singleton]
  rw [candidates_eq, candidates_eq, hlength, List.range_succ, List.reverse_append, List.reverse_singleton,
    List.singleton_append, List.map_cons]
  refine congrArg _ (List.map_congr_left fun count hcount => ?_)
  rw [List.mem_reverse, List.mem_range] at hcount
  rw [named, named, candidate, candidate, hparts, List.take_append_of_le_length (by omega)]

theorem length_suffix_take_lt {segments : List (List Char)} {count more : Nat} (hlt : count < more)
    (hle : more ≤ segments.length) :
    (suffix (segments.take count)).length < (suffix (segments.take more)).length := by
  obtain ⟨rest, hrest⟩ : segments.take count <+: segments.take more :=
    List.take_prefix_take_left (Nat.le_of_lt hlt)
  have hnonempty : rest ≠ [] := by
    rintro rfl
    have hlength := congrArg List.length hrest
    simp only [List.append_nil, List.length_take] at hlength
    omega
  obtain ⟨first, others, rfl⟩ := List.exists_cons_of_ne_nil hnonempty
  rw [← hrest, suffix, suffix, List.flatMap_append, List.length_append, List.flatMap_cons, List.length_append,
    List.length_cons]
  omega

theorem length_named_lt (path : String) {count more : Nat} (hlt : count < more)
    (hle : more ≤ (parts locale).length) :
    (named path locale count).toList.length < (named path locale more).toList.length := by
  have hsuffix := length_suffix_take_lt hlt hle
  simp only [named, candidate, String.toList_ofList, List.length_append]
  omega

theorem nodup_candidates (path : String) (locale : Option String) : (candidates path locale).Nodup := by
  rw [candidates_eq]
  refine List.Nodup.map_on ?_ (List.nodup_reverse.2 List.nodup_range)
  intro count hcount more hmore heq
  rw [List.mem_reverse, List.mem_range] at hcount hmore
  have hlength := congrArg (fun name => name.toList.length) heq
  rcases Nat.lt_trichotomy count more with hlt | rfl | hlt
  · exact absurd hlength (Nat.ne_of_lt (length_named_lt path hlt (by omega)))
  · rfl
  · exact absurd hlength (Nat.ne_of_gt (length_named_lt path hlt (by omega)))

theorem getLast?_candidates (path : String) (locale : Option String) :
    (candidates path locale).getLast? = some path := by
  rw [candidates_eq, List.getLast?_map, List.getLast?_reverse, List.range_succ_eq_map, List.head?_cons,
    Option.map_some, named_zero]

end Locale

namespace Finder

/-! ### The lookups -/

/-- The answer for a name inside a package, after a history that all went on over the same files. -/
def found (files : FileSystem) (history : List Action) (package name : String) (locale : Option String) :
    Option Handle :=
  ((({} : Finder).after (history.map (files, ·))).findResource files package name locale).1

def held (files : FileSystem) (history : List Action) (path : String) : Option Handle :=
  (({} : SearchPath).after files history).find? files path

variable {files : FileSystem} {history : List Action} {package name : String}

theorem found_eq (files : FileSystem) (history : List Action) (package name : String)
    (locale : Option String) :
    found files history package name locale =
      (SearchPath.candidatesFor package name locale).findSome? (held files history) := by
  have hfresh : ({} : Finder).Coherent files := coherent_of_known_empty files rfl
  obtain ⟨hcoherent, hsearch⟩ := hfresh.after history
  rw [found, findResource, (hcoherent.firstOf _).1, hsearch]
  rfl

theorem isSome_found_of_none (hplain : (found files history package name none).isSome = true)
    (locale : Option String) : (found files history package name locale).isSome = true := by
  have hheld : (held files history (SearchPath.fullPath package name)).isSome = true := by
    rw [found_eq, List.findSome?_isSome_iff] at hplain
    obtain ⟨path, hpath, hsome⟩ := hplain
    rwa [← List.mem_singleton.1 hpath]
  rw [found_eq, List.findSome?_isSome_iff]
  exact ⟨_, List.mem_of_getLast? (Locale.getLast?_candidates _ _), hheld⟩

/-- How the lookup of a name for a locale with one more segment falls back. -/
structure FallsBack (files : FileSystem) (history : List Action) (package name locale segment : String) :
    Prop where
  /-- The name with all segments is tried first, and then all that is tried for the shorter locale. -/
  peels : ∀ qualified : String,
    Locale.Inserts ('_' :: (locale ++ "_" ++ segment).toList) (SearchPath.fullPath package name).toList
        qualified.toList →
      found files history package name (some (locale ++ "_" ++ segment)) =
        (held files history qualified).or (found files history package name (some locale))
  qualified : ∃! qualified : String,
    Locale.Inserts ('_' :: (locale ++ "_" ++ segment).toList) (SearchPath.fullPath package name).toList
      qualified.toList
  distinct : ∀ any, (SearchPath.candidatesFor package name any).Nodup
  plain_last : ∀ any,
    (SearchPath.candidatesFor package name any).getLast? = some (SearchPath.fullPath package name)
  /-- What is found without a locale makes every locale succeed. -/
  serves : (found files history package name none).isSome = true →
    ∀ any, (found files history package name any).isSome = true

/-- A locale falls back by one segment at a time. -/
theorem fallsBack_of_segment (files : FileSystem) (history : List Action) (package name : String)
    {locale segment : String} (hlocale : locale ≠ "") (hsegment : '_' ∉ segment.toList) :
    FallsBack files history package name locale segment := by
  have hnamed := Locale.inserts_named (SearchPath.fullPath package name)
    (Locale.longer_ne_empty locale segment)
  have hunique : ∀ qualified : String,
      Locale.Inserts ('_' :: (locale ++ "_" ++ segment).toList) (SearchPath.fullPath package name).toList
        qualified.toList → qualified = _ := fun qualified hqualified =>
    String.toList_injective (hqualified.eq_append.trans hnamed.eq_append.symm)
  constructor
  case peels =>
    intro qualified hqualified
    rw [found_eq, SearchPath.candidatesFor, Locale.candidates_append _ hlocale hsegment,
      ← hunique qualified hqualified, List.findSome?_cons, found_eq, SearchPath.candidatesFor]
    cases held files history qualified with
    | none => rw [Option.none_or]
    | some handle => rw [Option.some_or]
  case qualified => exact ⟨_, hnamed, hunique⟩
  case distinct => exact fun any => Locale.nodup_candidates _ any
  case plain_last => exact fun any => Locale.getLast?_candidates _ any
  case serves => exact isSome_found_of_none

/-- A name without a dot, in a directory with one, in the overlay for one language and for all. -/
def greetings : List Action :=
  [.register .source ⟨"/a"⟩, .embed "msg.d/hello_fr" [1], .embed "/msg.d/hello" [2]]

theorem fallsBack_greetings :
    "fr" ≠ "" ∧ '_' ∉ "CA".toList ∧ FallsBack twoDirectories greetings "msg.d" "hello" "fr" "CA" ∧
      held twoDirectories greetings "msg.d/hello_fr_CA" = none ∧
      found twoDirectories greetings "msg.d" "hello" (some "fr_CA") = some (.embedded "msg.d/hello_fr") := by
  have hfalls : FallsBack twoDirectories greetings "msg.d" "hello" "fr" "CA" :=
    fallsBack_of_segment _ _ _ _ (by decide) (by decide)
  have hnone : held twoDirectories greetings "msg.d/hello_fr_CA" = none := by decide +kernel
  have hshorter : found twoDirectories greetings "msg.d" "hello" (some "fr") =
      some (.embedded "msg.d/hello_fr") := by decide +kernel
  have hinserts : Locale.Inserts "_fr_CA".toList "msg.d/hello".toList "msg.d/hello_fr_CA".toList :=
    Locale.inserts_iff.2 (by decide +kernel)
  have hfound := hfalls.peels "msg.d/hello_fr_CA" hinserts
  rw [hnone, Option.none_or, hshorter] at hfound
  exact ⟨by decide, by decide, hfalls, hnone, hfound⟩

end Finder

end BundleForge
