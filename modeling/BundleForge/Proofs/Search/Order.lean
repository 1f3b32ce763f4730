import BundleForge.Proofs.List
import BundleForge.Proofs.Search.Ranked
import BundleForge.Proofs.Search.Registered
import BundleForge.Proofs.Text
/-!
# The order of resolution

What an accessor may resolve to are its candidates: a declared source or a default extension, the package or
the root, a number of locale segments, and the overlay or a registered directory. `Serves` says which
resource a candidate leads to, in terms of the history of the finder alone. A candidate is ranked by its
positions at these six levels, and the finder answers with the resource of the least candidate there is.

The candidates are listed as trials, level within level as the finder tries them. The list ascends, so the
first success is the least one.
-/

namespace BundleForge

/-- Where a location stands in the order of search. -/
def Location.priority : Location → Nat
  | source => 0
  | generatedSource => 1
  | classPath => 2
  | classOutput => 3
  | processorPath => 4

theorem Location.getElem?_all {location : Location} {position : Nat} :
    all[position]? = some location ↔ position = location.priority := by
  constructor
  · intro hat
    rcases position with _ | _ | _ | _ | _ | position
    case succ.succ.succ.succ.succ => simp [all] at hat
    all_goals
      obtain rfl := Option.some.inj hat
      rfl
  · rintro rfl
    cases location <;> rfl

namespace Locale

theorem cutExtension_append (path : List Char) :
    (cutExtension path).1 ++ (cutExtension path).2 = path := by
  rw [cutExtension]
  split
  · rename_i stem extension hcut
    obtain ⟨dirs, hdirs⟩ := Text.suffix_afterLast '/' path
    rw [Text.eq_append_of_cutLast? hcut, ← List.append_assoc] at hdirs
    rw [← hdirs, List.take_left']
    simp only [List.length_append, List.length_cons]
    omega
  · exact List.append_nil path

/-- The segments of a locale; without a locale and in the empty one there are none. -/
def parts : Option String → List (List Char)
  | none => []
  | some locale => if locale = "" then [] else locale.toList.splitOn '_'

/-- A path with the first `count` segments of a locale added. -/
def named (path : String) (locale : Option String) (count : Nat) : String :=
  String.ofList (candidate path.toList (parts locale) count)

theorem named_of_parts_eq_nil (path : String) {locale : Option String} (h : parts locale = [])
    (count : Nat) : named path locale count = path := by
  rw [named, h, candidate, List.take_nil]
  show String.ofList ((cutExtension path.toList).1 ++ [] ++ (cutExtension path.toList).2) = path
  rw [List.append_nil, cutExtension_append, String.ofList_toList]

theorem candidates_eq (path : String) (locale : Option String) :
    candidates path locale =
      (List.range ((parts locale).length + 1)).reverse.map (named path locale) := by
  have hplain : parts locale = [] →
      [path] = (List.range ((parts locale).length + 1)).reverse.map (named path locale) := by
    intro hnil
    rw [hnil]
    show [path] = [named path locale 0]
    rw [named_of_parts_eq_nil path hnil]
  cases locale with
  | none => exact hplain rfl
  | some locale =>
    show (if locale = "" then _ else _) = _
    by_cases hempty : locale = ""
    · rw [if_pos hempty]
      exact hplain (if_pos hempty)
    · have hparts : parts (some locale) = locale.toList.splitOn '_' := if_neg hempty
      rw [if_neg hempty, ← hparts]
      rfl

end Locale

namespace Finder

/-! ### Candidates -/

/-- A place that may hold a full path: the overlay, or the directory of a location that was registered with
a given number. -/
inductive Shelf where
  | overlay
  | directory (location : Location) (registration : Nat)

/-- A candidate is one of the full paths an accessor may mean, on one of the shelves. The position is that
of the declared source or of the extension, and `segments` counts the segments of the locale. -/
structure Candidate where
  position : Nat
  fromRoot : Bool
  segments : Nat
  shelf : Shelf

def Shelf.rank : Shelf → Rank
  | overlay => [0]
  | directory location registration => [1, location.priority, registration]

/-- The positions at the levels of the order; more segments come before fewer. -/
def Candidate.rank (candidate : Candidate) (locale : Option String) : Rank :=
  candidate.position :: (if candidate.fromRoot then 1 else 0) ::
    ((Locale.parts locale).length - candidate.segments) :: candidate.shelf.rank

section

variable (files : FileSystem) (history : List Action) (bundle : Bundle) (accessor : Accessor)
  (extensions : List String) (locale : Option String)

/-- The full path a candidate means: a declared source in the package of the bundle or below the root, and
without declared sources the name of the accessor with a default extension, in the package. -/
inductive Means : Candidate → String → Prop
  | inPackage {sources : List String} {source : String} {position segments : Nat} {shelf : Shelf}
      (declared : accessor.source = some sources) (here : sources[position]? = some source)
      (le : segments ≤ (Locale.parts locale).length) :
      Means ⟨position, false, segments, shelf⟩
        (Locale.named (SearchPath.fullPath bundle.packagePath source) locale segments)
  | fromRoot {sources : List String} {source : String} {position segments : Nat} {shelf : Shelf}
      (declared : accessor.source = some sources) (here : sources[position]? = some source)
      (le : segments ≤ (Locale.parts locale).length) :
      Means ⟨position, true, segments, shelf⟩
        (Locale.named (SearchPath.rootRelative source) locale segments)
  | byDefault {extension : String} {position segments : Nat} {shelf : Shelf}
      (undeclared : accessor.source = none) (here : extensions[position]? = some extension)
      (le : segments ≤ (Locale.parts locale).length) :
      Means ⟨position, false, segments, shelf⟩
        (Locale.named (SearchPath.fullPath bundle.packagePath (accessor.name ++ extension)) locale
          segments)

/-- The resource a shelf holds under a full path. A directory that was registered before for the same
location is not looked at again. -/
inductive Holds (path : String) : Shelf → Handle → Prop
  | overlay (embedded : path ∈ payloads history) : Holds path .overlay (.embedded path)
  | directory {location : Location} {registration : Nat} {dir : Path}
      (registered : (registrations files location history)[registration]? = some dir)
      (new : ∀ earlier ∈ (registrations files location history).take registration,
        earlier.components ≠ dir.components)
      (file : files.isFile (dir.join ⟨path⟩)) :
      Holds path (.directory location registration) (.file location (dir.join ⟨path⟩))

/-- The candidate exists, and this is its resource. -/
def Serves (candidate : Candidate) (handle : Handle) : Prop :=
  ∃ path, Means bundle accessor extensions locale candidate path ∧
    Holds files history path candidate.shelf handle

/-! ### Trials -/

def overlayTrials (path : String) : Trials Handle :=
  [([], if path ∈ payloads history then some (.embedded path) else none)]

def directoryTrials (path : String) (location : Location) : Trials Handle :=
  (firsts (registrations files location history)).map fun entry =>
    ([entry.2], if files.isFile (entry.1.join ⟨path⟩) then some (.file location (entry.1.join ⟨path⟩))
      else none)

/-- A full path, in the overlay and then in the directories of each location. -/
def shelfTrials (path : String) : Trials Handle :=
  .numbered id 0
    [overlayTrials history path, .numbered (directoryTrials files history path) 0 Location.all]

def nameTrials (path : String) : Trials Handle :=
  .numbered (fun segments => shelfTrials files history (Locale.named path locale segments)) 0
    (List.range ((Locale.parts locale).length + 1)).reverse

def sourceTrials (source : String) : Trials Handle :=
  .numbered (fun package => nameTrials files history locale (SearchPath.fullPath package source)) 0
    [bundle.packagePath, ""]

def extensionTrials (extension : String) : Trials Handle :=
  .within 0 (nameTrials files history locale
    (SearchPath.fullPath bundle.packagePath (accessor.name ++ extension)))

def trials : Trials Handle :=
  match accessor.source with
  | some sources => .numbered (sourceTrials files history bundle locale) 0 sources
  | none => .numbered (extensionTrials files history bundle accessor locale) 0 extensions

end

variable {files : FileSystem} {history other : List Action} {bundle : Bundle} {accessor : Accessor}
  {extensions : List String} {locale : Option String}

/-! ### The trials ascend -/

theorem ascending_firsts (dirs : List Path) :
    (firsts dirs).Pairwise fun earlier later => earlier.2 < later.2 := by
  apply List.Pairwise.filter
  have hpositions : (dirs.zipIdx.map Prod.snd).Pairwise (· < ·) := by
    rw [List.zipIdx_map_snd]
    exact List.pairwise_lt_range'
  exact List.pairwise_map.1 hpositions

theorem ascending_shelfTrials (path : String) : (shelfTrials files history path).Ascending := by
  apply Trials.ascending_numbered
  intro shelves hshelves
  rcases List.mem_pair.1 hshelves with rfl | rfl
  · exact List.pairwise_singleton _ _
  · apply Trials.ascending_numbered
    intro location hlocation
    apply List.pairwise_map.2
    apply (ascending_firsts _).imp
    intro earlier later hlt
    exact List.cons_lt_cons_iff.2 (Or.inl hlt)

theorem ascending_nameTrials (path : String) : (nameTrials files history locale path).Ascending := by
  apply Trials.ascending_numbered
  intro segments hsegments
  exact ascending_shelfTrials _

theorem ascending_trials :
    (trials files history bundle accessor extensions locale).Ascending := by
  rw [trials]
  split
  · apply Trials.ascending_numbered
    intro source hsource
    apply Trials.ascending_numbered
    intro package hpackage
    exact ascending_nameTrials _
  · apply Trials.ascending_numbered
    intro extension hextension
    exact Trials.ascending_within 0 (ascending_nameTrials _)

/-! ### The trials are the candidates -/

theorem mem_overlayTrials {path : String} {rank : Rank} {handle : Handle} :
    (rank, some handle) ∈ overlayTrials history path ↔
      rank = [] ∧ path ∈ payloads history ∧ handle = .embedded path := by
  rw [overlayTrials, List.mem_singleton]
  split
  · rename_i hmem
    simp [hmem]
  · rename_i hmem
    simp [hmem]

theorem mem_directoryTrials {path : String} {location : Location} {rank : Rank} {handle : Handle} :
    (rank, some handle) ∈ directoryTrials files history path location ↔
      ∃ registration, rank = [registration] ∧
        Holds files history path (.directory location registration) handle := by
  rw [directoryTrials, List.mem_map]
  constructor
  · rintro ⟨⟨dir, registration⟩, hmem, heq⟩
    obtain ⟨hregistered, hnew⟩ := mem_firsts.1 hmem
    obtain ⟨rfl, hhandle⟩ := Prod.mk.inj heq
    by_cases hfile : files.isFile (dir.join ⟨path⟩)
    · rw [if_pos hfile] at hhandle
      obtain rfl := Option.some.inj hhandle
      exact ⟨registration, rfl, .directory hregistered hnew hfile⟩
    · rw [if_neg hfile] at hhandle
      simp at hhandle
  · rintro ⟨registration, rfl, hholds⟩
    cases hholds with
    | @directory _ _ dir hregistered hnew hfile =>
      exact ⟨(dir, registration), mem_firsts.2 ⟨hregistered, hnew⟩, by rw [if_pos hfile]⟩

theorem mem_shelfTrials {path : String} {rank : Rank} {handle : Handle} :
    (rank, some handle) ∈ shelfTrials files history path ↔
      ∃ shelf : Shelf, rank = shelf.rank ∧ Holds files history path shelf handle := by
  rw [shelfTrials, Trials.mem_numbered]
  constructor
  · rintro ⟨position, shelves, rest, hat, rfl, hmem⟩
    rcases getElem?_pair.1 hat with ⟨rfl, rfl⟩ | ⟨rfl, rfl⟩
    · obtain ⟨rfl, hembedded, rfl⟩ := mem_overlayTrials.1 hmem
      exact ⟨.overlay, rfl, .overlay hembedded⟩
    · obtain ⟨priority, location, rest, hlocation, rfl, hdirectory⟩ := Trials.mem_numbered.1 hmem
      obtain ⟨registration, rfl, hholds⟩ := mem_directoryTrials.1 hdirectory
      obtain rfl := Location.getElem?_all.1 hlocation
      refine ⟨.directory location registration, ?_, hholds⟩
      rw [Shelf.rank, Nat.zero_add, Nat.zero_add]
  · rintro ⟨shelf, rfl, hholds⟩
    cases shelf with
    | overlay =>
      refine ⟨0, _, [], rfl, rfl, ?_⟩
      cases hholds with
      | overlay hembedded => exact mem_overlayTrials.2 ⟨rfl, hembedded, rfl⟩
    | directory location registration =>
      refine ⟨1, _, [location.priority, registration], rfl, rfl, ?_⟩
      apply Trials.mem_numbered.2
      refine ⟨location.priority, location, [registration], Location.getElem?_all.2 rfl, ?_, ?_⟩
      · rw [Nat.zero_add]
      · exact mem_directoryTrials.2 ⟨registration, rfl, hholds⟩

theorem mem_nameTrials {path : String} {rank : Rank} {handle : Handle} :
    (rank, some handle) ∈ nameTrials files history locale path ↔
      ∃ segments ≤ (Locale.parts locale).length, ∃ shelf : Shelf,
        rank = ((Locale.parts locale).length - segments) :: shelf.rank ∧
          Holds files history (Locale.named path locale segments) shelf handle := by
  -- The position of a number of segments among the numbers in descending order.
  have hat : ∀ position segments : Nat,
      (List.range ((Locale.parts locale).length + 1)).reverse[position]? = some segments ↔
        segments ≤ (Locale.parts locale).length ∧
          position = (Locale.parts locale).length - segments := by
    intro position segments
    by_cases hlt : position < (Locale.parts locale).length + 1
    · rw [List.getElem?_reverse (by rwa [List.length_range]), List.length_range,
        List.getElem?_range (by omega), Option.some_inj]
      omega
    · rw [List.getElem?_eq_none (by rw [List.length_reverse, List.length_range]; omega)]
      simp only [reduceCtorEq, false_iff]
      omega
  rw [nameTrials, Trials.mem_numbered]
  constructor
  · rintro ⟨position, segments, rest, hposition, rfl, hmem⟩
    obtain ⟨hle, rfl⟩ := (hat position segments).1 hposition
    obtain ⟨shelf, rfl, hholds⟩ := mem_shelfTrials.1 hmem
    exact ⟨segments, hle, shelf, by rw [Nat.zero_add], hholds⟩
  · rintro ⟨segments, hle, shelf, rfl, hholds⟩
    refine ⟨_, segments, shelf.rank, (hat _ segments).2 ⟨hle, rfl⟩, by rw [Nat.zero_add], ?_⟩
    exact mem_shelfTrials.2 ⟨shelf, rfl, hholds⟩

theorem mem_trials {rank : Rank} {handle : Handle} :
    (rank, some handle) ∈ trials files history bundle accessor extensions locale ↔
      ∃ candidate : Candidate, rank = candidate.rank locale ∧
        Serves files history bundle accessor extensions locale candidate handle := by
  rw [trials]
  constructor
  · intro hmem
    split at hmem
    · rename_i sources hsources
      obtain ⟨position, source, rest, hsource, rfl, hrest⟩ := Trials.mem_numbered.1 hmem
      obtain ⟨side, package, rest, hpackage, rfl, hname⟩ := Trials.mem_numbered.1 hrest
      obtain ⟨segments, hle, shelf, rfl, hholds⟩ := mem_nameTrials.1 hname
      rw [Nat.zero_add, Nat.zero_add]
      rcases getElem?_pair.1 hpackage with ⟨rfl, rfl⟩ | ⟨rfl, rfl⟩
      · exact ⟨⟨position, false, segments, shelf⟩, rfl, _, .inPackage hsources hsource hle, hholds⟩
      · exact ⟨⟨position, true, segments, shelf⟩, rfl, _, .fromRoot hsources hsource hle, hholds⟩
    · rename_i hundeclared
      obtain ⟨position, extension, rest, hextension, rfl, hrest⟩ := Trials.mem_numbered.1 hmem
      obtain ⟨rest, rfl, hname⟩ := Trials.mem_within.1 hrest
      obtain ⟨segments, hle, shelf, rfl, hholds⟩ := mem_nameTrials.1 hname
      rw [Nat.zero_add]
      exact ⟨⟨position, false, segments, shelf⟩, rfl, _, .byDefault hundeclared hextension hle, hholds⟩
  · rintro ⟨candidate, rfl, path, hmeans, hholds⟩
    cases hmeans with
    | @inPackage sources source position segments shelf hsources hsource hle =>
      rw [hsources]
      refine Trials.mem_numbered.2 ⟨position, source, _, hsource, by rw [Nat.zero_add]; rfl, ?_⟩
      refine Trials.mem_numbered.2 ⟨0, bundle.packagePath, _, rfl, rfl, ?_⟩
      exact mem_nameTrials.2 ⟨segments, hle, shelf, rfl, hholds⟩
    | @fromRoot sources source position segments shelf hsources hsource hle =>
      rw [hsources]
      refine Trials.mem_numbered.2 ⟨position, source, _, hsource, by rw [Nat.zero_add]; rfl, ?_⟩
      refine Trials.mem_numbered.2 ⟨1, "", _, rfl, rfl, ?_⟩
      exact mem_nameTrials.2 ⟨segments, hle, shelf, rfl, hholds⟩
    | @byDefault extension position segments shelf hundeclared hextension hle =>
      rw [hundeclared]
      refine Trials.mem_numbered.2 ⟨position, extension, _, hextension, by rw [Nat.zero_add]; rfl, ?_⟩
      apply Trials.mem_within.2
      exact ⟨_, rfl, mem_nameTrials.2 ⟨segments, hle, shelf, rfl, hholds⟩⟩

/-! ### The search goes through the trials -/

section

variable {search : SearchPath}

theorem Reflects.first_directoryTrials (h : Reflects files history search) (path : String)
    (location : Location) :
    (directoryTrials files history path location).first =
      (search.registered.filter (·.1 = location)).findSome? fun (location, dir) =>
        let target := dir.join ⟨path⟩
        if files.isFile target then some (.file location target) else none := by
  rw [h.directories location, List.findSome?_map, Trials.first, directoryTrials, List.findSome?_map]
  rfl

theorem first_overlayTrials (path : String) :
    (overlayTrials history path).first =
      if path ∈ payloads history then some (.embedded path) else none := by
  by_cases hembedded : path ∈ payloads history
  · simp [overlayTrials, Trials.first, hembedded]
  · simp [overlayTrials, Trials.first, hembedded]

theorem Reflects.first_shelfTrials (h : Reflects files history search) (path : String) :
    (shelfTrials files history path).first = search.find? files path := by
  have hdirectories : (Trials.numbered (directoryTrials files history path) 0 Location.all).first =
      search.directories.findSome? fun (location, dir) =>
        let target := dir.join ⟨path⟩
        if files.isFile target then some (.file location target) else none := by
    rw [Trials.first_numbered, SearchPath.directories, findSome?_flatMap]
    simp only [h.first_directoryTrials]
  rw [shelfTrials, Trials.first_numbered_pair, id, id, first_overlayTrials, hdirectories,
    SearchPath.find?]
  by_cases hembedded : path ∈ payloads history
  · rw [if_pos hembedded, if_pos ((h.overlay path).2 hembedded), Option.some_or]
  · have hcontains : ¬search.embedded.contains path = true := by
      intro hin
      exact hembedded ((h.overlay path).1 hin)
    rw [if_neg hembedded, if_neg hcontains, Option.none_or]

theorem Reflects.first_nameTrials (h : Reflects files history search) (path : String) :
    (nameTrials files history locale path).first =
      search.firstOf files (Locale.candidates path locale) := by
  rw [nameTrials, Trials.first_numbered, SearchPath.firstOf, Locale.candidates_eq, List.findSome?_map]
  simp only [h.first_shelfTrials]
  rfl

theorem Reflects.first_trials (h : Reflects files history search) :
    (trials files history bundle accessor extensions locale).first =
      search.firstOf files (SearchPath.candidates bundle accessor extensions locale) := by
  rw [trials, SearchPath.candidates, SearchPath.firstOf]
  cases accessor.source with
  | some sources =>
    have hsource : ∀ source, (sourceTrials files history bundle locale source).first =
        (SearchPath.candidatesFor bundle.packagePath source locale ++
          SearchPath.candidatesFor "" source locale).findSome? (search.find? files) := by
      intro source
      rw [sourceTrials, Trials.first_numbered_pair, h.first_nameTrials, h.first_nameTrials,
        List.findSome?_append]
      rfl
    simp only [Trials.first_numbered, findSome?_flatMap, hsource]
  | none =>
    have hextension : ∀ extension,
        (extensionTrials files history bundle accessor locale extension).first =
          (SearchPath.candidatesFor bundle.packagePath (accessor.name ++ extension) locale).findSome?
            (search.find? files) := by
      intro extension
      rw [extensionTrials, Trials.first_within, h.first_nameTrials]
      rfl
    simp only [Trials.first_numbered, findSome?_flatMap, hextension]

end

/-! ### The answer -/

/-- The answer of a finder with a history, all of it over the same files. -/
def resolve (files : FileSystem) (history : List Action) (bundle : Bundle) (accessor : Accessor)
    (extensions : List String) (locale : Option String) : Except ResourceError (List Handle) :=
  ((({} : Finder).after (history.map (files, ·))).findResources files bundle accessor extensions
    locale).1

/-- What an accessor fails with: none of its sources was found, or none of the default extensions led to a
resource. -/
def failure (bundle : Bundle) (accessor : Accessor) (extensions : List String) : ResourceError :=
  match accessor.source with
  | some sources => .notFound bundle.name.path accessor.name sources
  | none => .noDefault extensions

/-- Two histories in which the same payloads were embedded and, location by location, the same directories
were registered in the same order. -/
structure Alike (files : FileSystem) (history other : List Action) : Prop where
  payloads : ∀ path, path ∈ payloads history ↔ path ∈ payloads other
  registrations : ∀ location,
    registrations files location history = registrations files location other

section

variable (files history bundle accessor extensions locale)

/-- The answer is the least candidate that exists, an error if there is none, and empty only where an empty
list of sources asks for nothing. -/
structure Resolves (answer : Except ResourceError (List Handle)) : Prop where
  found : ∀ handle, answer = .ok [handle] ↔
    ∃ candidate, Serves files history bundle accessor extensions locale candidate handle ∧
      ∀ other found, Serves files history bundle accessor extensions locale other found →
        candidate.rank locale ≤ other.rank locale
  single : ∀ handles, answer = .ok handles → handles = [] ∨ ∃ handle, handles = [handle]
  failed : ∀ error, answer = .error error ↔
    error = failure bundle accessor extensions ∧ accessor.source ≠ some [] ∧
      ∀ candidate handle, ¬Serves files history bundle accessor extensions locale candidate handle
  nothing : answer = .ok [] ↔ accessor.source = some []

end

theorem first_trials_eq_some_iff {handle : Handle} :
    (trials files history bundle accessor extensions locale).first = some handle ↔
      ∃ candidate, Serves files history bundle accessor extensions locale candidate handle ∧
        ∀ other found, Serves files history bundle accessor extensions locale other found →
          candidate.rank locale ≤ other.rank locale := by
  rw [Trials.first_eq_some_iff ascending_trials]
  constructor
  · rintro ⟨rank, hmem, hleast⟩
    obtain ⟨candidate, rfl, hserves⟩ := mem_trials.1 hmem
    refine ⟨candidate, hserves, ?_⟩
    intro other found hother
    exact hleast _ found (mem_trials.2 ⟨other, rfl, hother⟩)
  · rintro ⟨candidate, hserves, hleast⟩
    refine ⟨candidate.rank locale, mem_trials.2 ⟨candidate, rfl, hserves⟩, ?_⟩
    intro rank found hmem
    obtain ⟨other, rfl, hother⟩ := mem_trials.1 hmem
    exact hleast other found hother

theorem first_trials_eq_none_iff :
    (trials files history bundle accessor extensions locale).first = none ↔
      ∀ candidate handle, ¬Serves files history bundle accessor extensions locale candidate handle := by
  rw [Trials.first_eq_none_iff]
  constructor
  · intro hnone candidate handle hserves
    exact hnone _ handle (mem_trials.2 ⟨candidate, rfl, hserves⟩)
  · intro hnone rank handle hmem
    obtain ⟨candidate, -, hserves⟩ := mem_trials.1 hmem
    exact hnone candidate handle hserves

theorem first_trials_of_nothing (h : accessor.source = some []) :
    (trials files history bundle accessor extensions locale).first = none := by
  rw [trials, h]
  rfl

/-- The least candidate answers. -/
theorem resolves_ok {handle : Handle}
    (h : (trials files history bundle accessor extensions locale).first = some handle) :
    Resolves files history bundle accessor extensions locale (.ok [handle]) := by
  have hdeclared : accessor.source ≠ some [] := by
    intro hnothing
    rw [first_trials_of_nothing hnothing] at h
    simp at h
  constructor
  · intro other
    rw [← first_trials_eq_some_iff, h]
    simp
  · intro handles hok
    right
    exact ⟨handle, (Except.ok.inj hok).symm⟩
  · intro error
    constructor
    · intro herror
      simp at herror
    · rintro ⟨-, -, hnone⟩
      rw [first_trials_eq_none_iff.2 hnone] at h
      simp at h
  · simp [hdeclared]

theorem resolves_nothing (h : accessor.source = some []) :
    Resolves files history bundle accessor extensions locale (.ok []) := by
  constructor
  · intro handle
    rw [← first_trials_eq_some_iff, first_trials_of_nothing h]
    simp
  · intro handles hok
    left
    exact (Except.ok.inj hok).symm
  · intro error
    simp [h]
  · simp [h]

theorem resolves_error (hdeclared : accessor.source ≠ some [])
    (h : (trials files history bundle accessor extensions locale).first = none) :
    Resolves files history bundle accessor extensions locale
      (.error (failure bundle accessor extensions)) := by
  have hnone := first_trials_eq_none_iff.1 h
  constructor
  · intro handle
    rw [← first_trials_eq_some_iff, h]
    simp
  · intro handles hok
    simp at hok
  · intro error
    simp [hdeclared, hnone, eq_comm]
  · simp [hdeclared]

theorem resolves_of_first {found : Option Handle}
    (h : (trials files history bundle accessor extensions locale).first = found) :
    Resolves files history bundle accessor extensions locale
      (SearchPath.resolved bundle accessor extensions found) := by
  cases found with
  | some handle => exact resolves_ok h
  | none =>
    cases hsource : accessor.source with
    | none =>
      have herror := resolves_error (by simp [hsource]) h
      simpa only [SearchPath.resolved, failure, hsource] using herror
    | some sources =>
      cases sources with
      | nil =>
        simp only [SearchPath.resolved, hsource]
        exact resolves_nothing hsource
      | cons first rest =>
        have herror := resolves_error (by simp [hsource]) h
        simpa only [SearchPath.resolved, failure, hsource] using herror

theorem resolve_eq (files : FileSystem) (history : List Action) (bundle : Bundle)
    (accessor : Accessor) (extensions : List String) (locale : Option String) :
    resolve files history bundle accessor extensions locale =
      SearchPath.resolved bundle accessor extensions
        (trials files history bundle accessor extensions locale).first := by
  have hfresh : ({} : Finder).Coherent files := coherent_of_known_empty files rfl
  obtain ⟨hcoherent, hsearch⟩ := hfresh.after history
  rw [(reflects_after files history).first_trials, ← hsearch]
  show SearchPath.resolved _ _ _ (Finder.firstOf _ files _).1 = _
  rw [(hcoherent.firstOf _).1]

/-! ### Order of registration -/

theorem Alike.symm (h : Alike files history other) : Alike files other history where
  payloads path := (h.payloads path).symm
  registrations location := (h.registrations location).symm

theorem Holds.alike {path : String} {shelf : Shelf} {handle : Handle}
    (h : Holds files history path shelf handle) (halike : Alike files history other) :
    Holds files other path shelf handle := by
  cases h with
  | overlay hembedded => exact .overlay ((halike.payloads path).1 hembedded)
  | directory hregistered hnew hfile =>
    rw [halike.registrations] at hregistered hnew
    exact .directory hregistered hnew hfile

theorem Alike.serves_iff (h : Alike files history other) (candidate : Candidate) (handle : Handle) :
    Serves files history bundle accessor extensions locale candidate handle ↔
      Serves files other bundle accessor extensions locale candidate handle := by
  constructor
  · rintro ⟨path, hmeans, hholds⟩
    exact ⟨path, hmeans, hholds.alike h⟩
  · rintro ⟨path, hmeans, hholds⟩
    exact ⟨path, hmeans, hholds.alike h.symm⟩

theorem Alike.first_trials (h : Alike files history other) :
    (trials files other bundle accessor extensions locale).first =
      (trials files history bundle accessor extensions locale).first := by
  apply Option.ext
  intro handle
  simp only [first_trials_eq_some_iff, h.serves_iff]

/-- Over fixed files a finder answers with its least candidate, and it does not matter in which order the
directories of different locations were registered. -/
theorem resolves_least (files : FileSystem) (history : List Action) (bundle : Bundle)
    (accessor : Accessor) (extensions : List String) (locale : Option String) :
    Resolves files history bundle accessor extensions locale
        (resolve files history bundle accessor extensions locale) ∧
      ∀ other, Alike files history other →
        resolve files other bundle accessor extensions locale =
          resolve files history bundle accessor extensions locale := by
  constructor
  · rw [resolve_eq]
    exact resolves_of_first rfl
  · intro other halike
    rw [resolve_eq, resolve_eq, halike.first_trials]

/-- Two directories with a file of the same name. -/
def twoDirectories : FileSystem where
  nodes :=
    { entries := [(["a"], .directory), (["b"], .directory), (["icon.png", "a"], .file [1]),
        (["icon.png", "b"], .file [2])]
      nodup_keys := by decide }
  workingDirectory := []

def icons : Bundle where
  name := ⟨"crate::Icons"⟩

def icon : Accessor where
  name := "icon"
  kind := .imageResource

def classPathFirst : List Action := [.register .classPath ⟨"/a"⟩, .register .source ⟨"/b/."⟩]

def sourceFirst : List Action := [.register .source ⟨"/b/."⟩, .register .classPath ⟨"/a"⟩]

/-- The source directory comes first, whichever of the two directories is registered first. -/
theorem resolves_least_twoDirectories :
    Alike twoDirectories classPathFirst sourceFirst ∧
      resolve twoDirectories classPathFirst icons icon [".png"] (some "fr") =
        .ok [.file .source ⟨"/b/icon.png"⟩] ∧
      resolve twoDirectories sourceFirst icons icon [".png"] (some "fr") =
        resolve twoDirectories classPathFirst icons icon [".png"] (some "fr") := by
  have halike : Alike twoDirectories classPathFirst sourceFirst := by
    constructor
    · intro path
      rfl
    · intro location
      cases location <;> decide +kernel
  refine ⟨halike, ?_, ?_⟩
  · decide +kernel
  · exact (resolves_least twoDirectories classPathFirst icons icon [".png"] (some "fr")).2 _ halike

end Finder

end BundleForge
