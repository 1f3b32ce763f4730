import BundleForge.Search.Finder
/-!
# Finders over time

A finder is configured and asked in any order, and between two of these actions the files may change. As
long as they do not, every reply is that of the search path alone, because each action keeps the finder
coherent. When they do, a finder may be out of date but never contradicts itself: remembered answers are
not replaced, so what it has said once it says again until it is configured anew.
-/

namespace BundleForge

namespace Finder

inductive Query where
  | resource (package name : String) (locale : Option String)
  | resources (bundle : Bundle) (accessor : Accessor) (extensions : List String)
      (locale : Option String)

inductive Reply where
  | resource (found : Option Handle)
  | resources (found : Except ResourceError (List Handle))

def ask (finder : Finder) (files : FileSystem) : Query → Reply × Finder
  | .resource package name locale =>
    let (found, finder) := finder.findResource files package name locale
    (.resource found, finder)
  | .resources bundle accessor extensions locale =>
    let (found, finder) := finder.findResources files bundle accessor extensions locale
    (.resources found, finder)

inductive Action where
  | register (location : Location) (dir : Path)
  | embed (path : String) (bytes : Bytes)
  | ask (query : Query)

/-- The finder an action leaves, given the files at that time. -/
def act (finder : Finder) (files : FileSystem) : Action → Finder
  | .register location dir => finder.register files location dir
  | .embed path bytes => finder.embed path bytes
  | .ask query => (finder.ask files query).2

/-- The finder after some actions, each with the files there were when it was done. -/
def after (finder : Finder) : List (FileSystem × Action) → Finder
  | [] => finder
  | (files, action) :: rest => (finder.act files action).after rest

end Finder

namespace SearchPath

open Finder (Query Reply Action)

def firstOf (search : SearchPath) (files : FileSystem) (paths : List String) : Option Handle :=
  paths.findSome? (search.find? files)

def resource (search : SearchPath) (files : FileSystem) (bundle : Bundle) (accessor : Accessor)
    (extensions : List String) (locale : Option String) : Except ResourceError Resource := do
  search.load files (← exactlyOne (← resolved bundle accessor extensions
    (search.firstOf files (candidates bundle accessor extensions locale))))

/-- What a query is told by a search path that remembers nothing. -/
def reply (search : SearchPath) (files : FileSystem) : Query → Reply
  | .resource package name locale =>
    .resource (search.firstOf files (candidatesFor package name locale))
  | .resources bundle accessor extensions locale =>
    .resources (resolved bundle accessor extensions
      (search.firstOf files (candidates bundle accessor extensions locale)))

def act (search : SearchPath) (files : FileSystem) : Action → SearchPath
  | .register location dir => search.register files location dir
  | .embed path bytes => search.embed path bytes
  | .ask _ => search

def after (search : SearchPath) (files : FileSystem) : List Action → SearchPath
  | [] => search
  | action :: rest => (search.act files action).after files rest

end SearchPath

namespace Finder

variable {finder later : Finder} {files : FileSystem}

/-! ### While the files stay as they are -/

theorem firstOf_cons_of_some {path : String} {handle : Handle}
    (h : (finder.lookup files path).1 = some handle) (rest : List String) :
    finder.firstOf files (path :: rest) = (some handle, (finder.lookup files path).2) := by
  rw [firstOf]
  split
  · rename_i other next hlookup
    rw [hlookup] at h ⊢
    exact congrArg (·, next) h
  · rename_i next hlookup
    rw [hlookup] at h
    simp at h

theorem firstOf_cons_of_none {path : String} (h : (finder.lookup files path).1 = none)
    (rest : List String) :
    finder.firstOf files (path :: rest) = (finder.lookup files path).2.firstOf files rest := by
  rw [firstOf]
  split
  · rename_i other next hlookup
    rw [hlookup] at h
    simp at h
  · rename_i next hlookup
    rw [hlookup]

theorem Coherent.firstOf (h : finder.Coherent files) (paths : List String) :
    (finder.firstOf files paths).1 = finder.search.firstOf files paths ∧
      (finder.firstOf files paths).2.Coherent files ∧
      (finder.firstOf files paths).2.search = finder.search := by
  induction paths generalizing finder with
  | nil => exact ⟨rfl, h, rfl⟩
  | cons path rest ih =>
    obtain ⟨hanswer, hnext⟩ := h.lookup path
    have hsearch := search_lookup finder files path
    rw [SearchPath.firstOf, List.findSome?_cons, ← hanswer]
    cases hlookup : (finder.lookup files path).1 with
    | some handle =>
      rw [firstOf_cons_of_some hlookup]
      exact ⟨rfl, hnext, hsearch⟩
    | none =>
      rw [firstOf_cons_of_none hlookup, ← hsearch]
      exact ih hnext

theorem Coherent.ask (h : finder.Coherent files) (query : Query) :
    (finder.ask files query).1 = finder.search.reply files query ∧
      (finder.ask files query).2.Coherent files ∧
      (finder.ask files query).2.search = finder.search := by
  cases query with
  | resource package name locale =>
    obtain ⟨hfound, hrest⟩ := h.firstOf (SearchPath.candidatesFor package name locale)
    exact ⟨congrArg Reply.resource hfound, hrest⟩
  | resources bundle accessor extensions locale =>
    obtain ⟨hfound, hrest⟩ :=
      h.firstOf (SearchPath.candidates bundle accessor extensions locale)
    refine ⟨?_, hrest⟩
    show Reply.resources (SearchPath.resolved _ _ _ (finder.firstOf files _).1) = _
    rw [hfound]
    rfl

theorem Coherent.act (h : finder.Coherent files) (action : Action) :
    (finder.act files action).Coherent files ∧
      (finder.act files action).search = finder.search.act files action := by
  cases action with
  | register location dir => exact ⟨coherent_of_known_empty files rfl, rfl⟩
  | embed path bytes => exact ⟨coherent_of_known_empty files rfl, rfl⟩
  | ask query => exact (h.ask query).2

theorem Coherent.after (h : finder.Coherent files) (history : List Action) :
    (finder.after (history.map (files, ·))).Coherent files ∧
      (finder.after (history.map (files, ·))).search = finder.search.after files history := by
  induction history generalizing finder with
  | nil => exact ⟨h, rfl⟩
  | cons action rest ih =>
    obtain ⟨hnext, hsearch⟩ := h.act action
    rw [SearchPath.after, ← hsearch]
    exact ih hnext

/-! ### While the files change -/

/-- Whatever one finder remembers, the other remembers too. -/
def Recalls (finder later : Finder) : Prop :=
  ∀ path answer, finder.known.get? path = some answer → later.known.get? path = some answer

theorem Recalls.refl (finder : Finder) : finder.Recalls finder := by
  intro path answer hknown
  exact hknown

theorem Recalls.trans {middle : Finder} (h : finder.Recalls middle) (h' : middle.Recalls later) :
    finder.Recalls later := by
  intro path answer hknown
  exact h' path answer (h path answer hknown)

theorem recalls_lookup (finder : Finder) (files : FileSystem) (path : String) :
    finder.Recalls (finder.lookup files path).2 ∧
      (finder.lookup files path).2.known.get? path = some (finder.lookup files path).1 := by
  rw [lookup]
  cases hknown : finder.known.get? path with
  | some answer => exact ⟨.refl finder, hknown⟩
  | none =>
    constructor
    · intro other answer hother
      have hne : other ≠ path := by
        rintro rfl
        rw [hknown] at hother
        simp at hother
      simp only [OrderedMap.get?_insert, if_neg hne, hother]
    · simp only [OrderedMap.get?_insert, if_true]

/-- What a finder remembers settles which of several full paths is the first that exists. -/
inductive Settles (finder : Finder) : List String → Option Handle → Prop
  | nil : Settles finder [] none
  | hit {path : String} {rest : List String} {handle : Handle}
      (known : finder.known.get? path = some (some handle)) :
      Settles finder (path :: rest) (some handle)
  | miss {path : String} {rest : List String} {found : Option Handle}
      (known : finder.known.get? path = some none) (rest_settled : Settles finder rest found) :
      Settles finder (path :: rest) found

theorem Settles.mono {paths : List String} {found : Option Handle} (h : finder.Settles paths found)
    (hrecalls : finder.Recalls later) : later.Settles paths found := by
  induction h with
  | nil => exact .nil
  | hit known => exact .hit (hrecalls _ _ known)
  | miss known _ ih => exact .miss (hrecalls _ _ known) ih

theorem Settles.firstOf_eq {paths : List String} {found : Option Handle}
    (h : finder.Settles paths found) (files : FileSystem) :
    (finder.firstOf files paths).1 = found := by
  induction h with
  | nil => rfl
  | hit known => rw [Finder.firstOf, lookup, known]
  | miss known _ ih =>
    rw [Finder.firstOf, lookup, known]
    exact ih

theorem settles_firstOf (finder : Finder) (files : FileSystem) (paths : List String) :
    finder.Recalls (finder.firstOf files paths).2 ∧
      (finder.firstOf files paths).2.Settles paths (finder.firstOf files paths).1 := by
  induction paths generalizing finder with
  | nil => exact ⟨.refl finder, .nil⟩
  | cons path rest ih =>
    obtain ⟨hrecalls, hknown⟩ := recalls_lookup finder files path
    cases hlookup : (finder.lookup files path).1 with
    | some handle =>
      rw [hlookup] at hknown
      rw [firstOf_cons_of_some hlookup]
      exact ⟨hrecalls, .hit hknown⟩
    | none =>
      rw [hlookup] at hknown
      rw [firstOf_cons_of_none hlookup]
      obtain ⟨hlater, hrest⟩ := ih (finder.lookup files path).2
      exact ⟨hrecalls.trans hlater, .miss (hlater _ _ hknown) hrest⟩

theorem recalls_ask (finder : Finder) (files : FileSystem) (query : Query) :
    finder.Recalls (finder.ask files query).2 := by
  cases query with
  | resource package name locale => exact (settles_firstOf finder files _).1
  | resources bundle accessor extensions locale => exact (settles_firstOf finder files _).1

theorem recalls_after_asks (finder : Finder) (asks : List (FileSystem × Query)) :
    finder.Recalls (finder.after (asks.map fun (files, query) => (files, .ask query))) := by
  induction asks generalizing finder with
  | nil => exact .refl finder
  | cons ask rest ih => exact (recalls_ask finder ask.1 ask.2).trans (ih _)

/-- A finder that has answered a query gives the same reply as long as it remembers its answers. -/
theorem ask_eq_of_recalls (finder : Finder) (files : FileSystem) (query : Query)
    (hrecalls : (finder.ask files query).2.Recalls later) (now : FileSystem) :
    (later.ask now query).1 = (finder.ask files query).1 := by
  cases query with
  | resource package name locale =>
    have hsettled := (settles_firstOf finder files
      (SearchPath.candidatesFor package name locale)).2.mono hrecalls
    exact congrArg Reply.resource (hsettled.firstOf_eq now)
  | resources bundle accessor extensions locale =>
    have hsettled := (settles_firstOf finder files
      (SearchPath.candidates bundle accessor extensions locale)).2.mono hrecalls
    exact congrArg (fun found => Reply.resources (SearchPath.resolved bundle accessor extensions found))
      (hsettled.firstOf_eq now)

/-! ### Replies over a history -/

/-- Remembering does not show. Over fixed files a finder replies after any history as its search path
would. Over changing files it gives a query the same reply twice, whatever else it is asked in between. -/
theorem reply_after_history :
    (∀ (files : FileSystem) (history : List Action) (query : Query),
      ((({} : Finder).after (history.map (files, ·))).ask files query).1 =
        (({} : SearchPath).after files history).reply files query) ∧
    (∀ (history : List (FileSystem × Action)) (files now : FileSystem) (query : Query)
        (between : List (FileSystem × Query)),
      let asked := (({} : Finder).after history).ask files query
      ((asked.2.after (between.map fun (files, query) => (files, .ask query))).ask now query).1 =
        asked.1) := by
  constructor
  · intro files history query
    have hfresh : ({} : Finder).Coherent files := coherent_of_known_empty files rfl
    obtain ⟨hcoherent, hsearch⟩ := hfresh.after history
    rw [(hcoherent.ask query).1, hsearch]
  · intro history files now query between
    exact ask_eq_of_recalls _ files query (recalls_after_asks _ between) now

end Finder

end BundleForge
