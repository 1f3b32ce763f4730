import BundleForge.Proofs.Except
import BundleForge.Proofs.FileSystem.Reach
import BundleForge.Proofs.Search.Registered
/-!
# Origins of resources

Messages and comments name a resource by its origin, and generators keep what they deploy under it. That is
safe if resources with the same origin are the same. Payloads are named by their paths behind a word of their
own, and files by the paths under which they are found, which begin with a slash because a directory that exists
is registered in canonical form. Only the empty path has no canonical form although files are found from it.
-/

namespace BundleForge

namespace FileSystem

variable {files : FileSystem} {dir path : Path} {place : Place}

theorem exists_locate_of_join (hdir : dir.text ≠ "") (hpath : path.isAbsolute = false)
    (h : files.locate (dir.join path) = .ok place) : ∃ above, files.locate dir = .ok above := by
  have hstart : files.start (dir.join path) = files.start dir := by
    rw [start, start, Path.isAbsolute_join dir hpath]
  rw [locate] at h
  split at h
  · simp at h
  · rw [hstart, Path.segments_join dir hpath] at h
    obtain ⟨above, hstem, hrest⟩ := exists_follow_of_append h
    obtain ⟨step, rest, hsegments⟩ := List.exists_cons_of_ne_nil path.segments_ne_nil
    rw [hsegments] at hrest
    refine ⟨above, ?_⟩
    rw [locate, if_neg hdir]
    rcases Path.segments_eq_stem hdir with hall | hslash
    · rw [hall, hstem]
    · rw [hslash, follow_append hstem, follow, if_pos (isDirectoryAt_of_follow_cons hrest),
        if_pos (.inl rfl), follow]

theorem isAbsolute_of_canonical? {canonical : Path} (h : files.canonical? dir = some canonical) :
    canonical.isAbsolute = true := by
  rw [canonical?] at h
  split at h
  · obtain rfl := Option.some.inj h
    rw [Place.path, Path.isAbsolute_iff, String.toList_append]
    rfl
  · simp at h

/-- A file that is found from a directory in canonical form has an absolute path. -/
theorem isAbsolute_of_isFile (hdir : dir.text ≠ "")
    (h : files.isFile (((files.canonical? dir).getD dir).join path) = true) :
    (((files.canonical? dir).getD dir).join path).isAbsolute = true := by
  by_cases hpath : path.isAbsolute = true
  · rwa [Path.join, if_pos hpath]
  · rw [Bool.not_eq_true] at hpath
    rw [Path.isAbsolute_join _ hpath]
    cases hcanonical : files.canonical? dir with
    | some canonical => exact isAbsolute_of_canonical? hcanonical
    | none =>
      rw [hcanonical, Option.getD_none, isFile] at h
      split at h
      · rename_i hlocate
        obtain ⟨above, habove⟩ := exists_locate_of_join hdir hpath hlocate
        rw [canonical?, habove] at hcanonical
        simp at hcanonical
      · simp at h

end FileSystem

namespace SearchPath

variable {search : SearchPath} {files : FileSystem}

/-- Some full path leads to the resource. -/
def Yields (search : SearchPath) (files : FileSystem) (resource : Resource) : Prop :=
  ∃ path handle, search.find? files path = some handle ∧ search.load files handle = .ok resource

/-- Resources with the same origin are the same. -/
def TellsApart (search : SearchPath) (files : FileSystem) : Prop :=
  ∀ resource other, search.Yields files resource → search.Yields files other →
    resource.origin = other.origin → resource = other

theorem yields_of_resource {bundle : Bundle} {accessor : Accessor} {extensions : List String}
    {locale : Option String} {resource : Resource}
    (h : search.resource files bundle accessor extensions locale = .ok resource) :
    search.Yields files resource := by
  obtain ⟨handles, hresolved, hsingle⟩ := bind_eq_ok h
  obtain ⟨handle, hone, hload⟩ := bind_eq_ok hsingle
  unfold resolved at hresolved
  split at hresolved
  · rename_i found hfound
    obtain rfl := Except.ok.inj hresolved
    obtain rfl : found = handle := Except.ok.inj hone
    obtain ⟨path, -, hpath⟩ := List.exists_of_findSome?_eq_some hfound
    exact ⟨path, found, hpath, hload⟩
  · obtain rfl := Except.ok.inj hresolved
    simp [exactlyOne] at hone
  · simp at hresolved
  · simp at hresolved

theorem origin_of_load {handle : Handle} {resource : Resource}
    (h : search.load files handle = .ok resource) : resource.origin = handle.origin := by
  unfold load at h
  dsimp only at h
  split at h
  · split at h
    · obtain rfl := Except.ok.inj h
      rfl
    · obtain ⟨bytes, hnone, -⟩ := bind_eq_ok h
      simp at hnone
  · split at h
    · obtain rfl := Except.ok.inj h
      rfl
    · obtain ⟨bytes, hnone, -⟩ := bind_eq_ok h
      simp at hnone

theorem find?_cases {path : String} {handle : Handle} (h : search.find? files path = some handle) :
    (search.embedded.contains path = true ∧ handle = .embedded path) ∨
    ∃ location dir, (location, dir) ∈ search.registered ∧ files.isFile (dir.join ⟨path⟩) = true ∧
      handle = .file location (dir.join ⟨path⟩) := by
  rw [find?] at h
  split at h
  · rename_i hpayload
    exact Or.inl ⟨hpayload, (Option.some.inj h).symm⟩
  · obtain ⟨⟨location, dir⟩, hmem, hfound⟩ := List.exists_of_findSome?_eq_some h
    obtain ⟨_, -, hregistered⟩ := List.mem_flatMap.1 hmem
    dsimp only at hfound
    split at hfound
    · rename_i hfile
      exact Or.inr ⟨location, dir, List.mem_of_mem_filter hregistered, hfile, (Option.some.inj hfound).symm⟩
    · simp at hfound

private theorem embedded_origin_inj {path other : String}
    (h : (Handle.embedded path).origin = (Handle.embedded other).origin) : path = other := by
  have hchars := congrArg String.toList h
  simp only [Handle.origin, String.toList_append] at hchars
  exact String.toList_inj.1 (List.append_cancel_left hchars)

private theorem embedded_origin_ne {path : String} {location : Location} {file : Path}
    (h : file.isAbsolute = true) : (Handle.embedded path).origin ≠ (Handle.file location file).origin := by
  intro hsame
  rw [Path.isAbsolute_iff] at h
  have hchars := congrArg (fun text => text.toList.head?) hsame
  simp only [Handle.origin, String.toList_append] at hchars
  rw [h] at hchars
  exact absurd (Option.some.inj hchars) (by decide)

/-- Origins tell resources apart if there are no payloads, or if files have absolute paths. -/
theorem tellsApart_of_isAbsolute (h : (∀ path, search.embedded.contains path = false) ∨
    ∀ location dir path, (location, dir) ∈ search.registered → files.isFile (dir.join path) = true →
      (dir.join path).isAbsolute = true) : search.TellsApart files := by
  have hmixed : ∀ {path location dir file}, search.embedded.contains path = true →
      (location, dir) ∈ search.registered → files.isFile (dir.join file) = true →
      (Handle.embedded path).origin ≠ (Handle.file location (dir.join file)).origin := by
    intro path location dir file hpayload hregistered hfile
    rcases h with hnone | habsolute
    · rw [hnone path] at hpayload
      simp at hpayload
    · exact embedded_origin_ne (habsolute location dir file hregistered hfile)
  rintro resource other ⟨path, handle, hfind, hload⟩ ⟨path', handle', hfind', hload'⟩ hsame
  rw [origin_of_load hload, origin_of_load hload'] at hsame
  have hloads : search.load files handle = search.load files handle' := by
    rcases find?_cases hfind with ⟨hpayload, rfl⟩ | ⟨location, dir, hregistered, hfile, rfl⟩
    · rcases find?_cases hfind' with ⟨-, rfl⟩ | ⟨location', dir', hregistered', hfile', rfl⟩
      · rw [embedded_origin_inj hsame]
      · exact absurd hsame (hmixed hpayload hregistered' hfile')
    · rcases find?_cases hfind' with ⟨hpayload', rfl⟩ | ⟨location', dir', -, -, rfl⟩
      · exact absurd hsame.symm (hmixed hpayload' hregistered hfile)
      · have hpath : dir.join ⟨path⟩ = dir'.join ⟨path'⟩ := congrArg Path.mk hsame
        rw [hpath]
        rfl
  rw [hload, hload'] at hloads
  exact Except.ok.inj hloads

end SearchPath

namespace Finder

variable {files : FileSystem} {history : List Action}

/-- Payloads are not embedded beside a directory that is registered under the empty path. The path of a file
that is found from such a directory is relative, and may spell the origin of a payload. -/
def Unmixed (history : List Action) : Prop :=
  payloads history = [] ∨ ∀ location dir, .register location dir ∈ history → dir.text ≠ ""

theorem Reflects.exists_register {search : SearchPath} (h : Reflects files history search)
    {location : Location} {dir : Path} (hmem : (location, dir) ∈ search.registered) :
    ∃ named, .register location named ∈ history ∧ dir = (files.canonical? named).getD named := by
  have hfilter : (location, dir) ∈ search.registered.filter (·.1 = location) :=
    List.mem_filter.2 ⟨hmem, decide_eq_true rfl⟩
  rw [h.directories location] at hfilter
  obtain ⟨⟨first, position⟩, hfirst, hsame⟩ := List.mem_map.1 hfilter
  obtain rfl : first = dir := (Prod.mk.inj hsame).2
  obtain ⟨action, haction, hregistered⟩ := List.mem_filterMap.1 (List.mem_of_getElem? (mem_firsts.1 hfirst).1)
  cases action with
  | register other named =>
    rw [Action.registered?] at hregistered
    split at hregistered
    · rename_i hlocation
      exact ⟨named, hlocation ▸ haction, (Option.some.inj hregistered).symm⟩
    · simp at hregistered
  | embed path bytes => simp [Action.registered?] at hregistered
  | ask query => simp [Action.registered?] at hregistered

/-- While files stay as they are, origins tell resources apart. -/
theorem tellsApart_after (h : Unmixed history) :
    (({} : SearchPath).after files history).TellsApart files := by
  have hreflects := reflects_after files history
  apply SearchPath.tellsApart_of_isAbsolute
  rcases h with hnone | hnamed
  · left
    intro path
    rw [← Bool.not_eq_true, hreflects.overlay path, hnone]
    exact List.not_mem_nil
  · right
    intro location dir path hregistered hfile
    obtain ⟨named, hregister, rfl⟩ := hreflects.exists_register hregistered
    exact FileSystem.isAbsolute_of_isFile (hnamed location named hregister) hfile

end Finder

end BundleForge
