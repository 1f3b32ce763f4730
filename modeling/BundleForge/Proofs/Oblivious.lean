import BundleForge.Dispatch
import BundleForge.Proofs.Generator
import BundleForge.Proofs.Search.Finder
/-!
# What finders remember does not show

Two sessions over the same files and the same search path may differ in what their finders remember. As long
as payloads are embedded, no call of a generator can tell such sessions apart: it comes to the same result,
leaves the same memory behind, and leaves the files and the search path as they are. `Generator.Oblivious` says
so of all phases of a generator, and holds of the four generators there are.
-/

namespace BundleForge

variable {files : FileSystem} {search : SearchPath}

/-- A session over given files and a given search path, whose finder remembers nothing wrong. -/
structure Session.Over (files : FileSystem) (search : SearchPath) (session : Session) : Prop where
  files_eq : session.files = files
  search_eq : session.finder.search = search
  coherent : session.finder.Coherent files

/-- Two sessions that differ at most in what their finders remember. -/
structure Session.Same (files : FileSystem) (search : SearchPath) (session other : Session) : Prop where
  left : session.Over files search
  right : other.Over files search
  cache : session.cache = other.cache
  active : session.active = other.active

theorem Session.Over.same {session : Session} (h : session.Over files search) :
    Session.Same files search session session :=
  ⟨h, h, rfl, rfl⟩

theorem Session.Over.select {session : Session} (h : session.Over files search) (id : GeneratorId) :
    (session.select id).Over files search :=
  ⟨h.files_eq, h.search_eq, h.coherent⟩

theorem Session.Same.select {session other : Session} (h : Session.Same files search session other) (id : GeneratorId) :
    Session.Same files search (session.select id) (other.select id) :=
  ⟨h.left.select id, h.right.select id, h.cache, rfl⟩

/-- A session finds the resource that its search path leads to. -/
theorem Session.Over.exists_resolve {session : Session} (h : session.Over files search) (context : Context)
    (accessor : Accessor) (locale : Option String) :
    ∃ next, session.resolve context accessor locale = (search.resource files context.bundle accessor
        (context.hierarchy.defaultExtensions accessor.kind) locale, next) ∧
      next.Over files search ∧ next.cache = session.cache ∧ next.active = session.active := by
  obtain ⟨rfl, rfl, hcoherent⟩ := h
  obtain ⟨hfound, hnext, hkept⟩ := hcoherent.firstOf (SearchPath.candidates context.bundle accessor
    (context.hierarchy.defaultExtensions accessor.kind) locale)
  refine ⟨_, Prod.ext ?_ rfl, ⟨rfl, hkept, hnext⟩, rfl, rfl⟩
  unfold Session.resolve Finder.findResources SearchPath.resource
  dsimp only
  rw [hfound, hkept]

/-- Two outcomes that differ at most in what finders remember. -/
structure Outcome.Same {Memory α : Type} (files : FileSystem) (search : SearchPath)
    (outcome other : Outcome Memory α) : Prop where
  result : outcome.1 = other.1
  session : Session.Same files search outcome.2.1 other.2.1
  memory : outcome.2.2 = other.2.2

/-- Two contexts that answer alike, although types and bundles may be declared in another order. -/
structure Context.Agrees (context other : Context) : Prop where
  bundle : context.bundle = other.bundle
  locale : context.locale = other.locale
  extensions : ∀ ty, context.hierarchy.defaultExtensions ty = other.hierarchy.defaultExtensions ty
  bundles : ∀ ty, context.bundles.get? ty = other.bundles.get? ty
  deployment : context.deployment = other.deployment
  stripComments : context.stripComments = other.stripComments

/-- The context and the session of a call beside those of another call that embeds payloads, too. -/
structure Indistinct (files : FileSystem) (search : SearchPath) (context other : Context)
    (session session' : Session) : Prop where
  agrees : context.Agrees other
  inline : context.deployment = .inline
  same : Session.Same files search session session'

variable {context other : Context} {session session' : Session}

namespace Indistinct

theorem resolve (h : Indistinct files search context other session session') (accessor : Accessor)
    (locale : Option String) :
    (session.resolve context accessor locale).1 = (session'.resolve other accessor locale).1 ∧
      Indistinct files search context other (session.resolve context accessor locale).2
        (session'.resolve other accessor locale).2 := by
  obtain ⟨next, hresolve, hnext, hcache, hactive⟩ := h.same.left.exists_resolve context accessor locale
  obtain ⟨next', hresolve', hnext', hcache', hactive'⟩ := h.same.right.exists_resolve other accessor locale
  rw [hresolve, hresolve', ← h.agrees.bundle, ← h.agrees.extensions]
  exact ⟨rfl, h.agrees, h.inline, hnext, hnext', hcache.trans (h.same.cache.trans hcache'.symm),
    hactive.trans (h.same.active.trans hactive'.symm)⟩

theorem deploy (h : Indistinct files search context other session session')
    (fileName mimeType : String) (data : Bytes) (forceExternal : Bool) :
    ∃ result,
      session.deploy context fileName mimeType data forceExternal = (result, session) ∧
      session'.deploy other fileName mimeType data forceExternal = (result, session') := by
  have hother : other.deployment = .inline := h.agrees.deployment.symm.trans h.inline
  unfold Session.deploy Deployment.url
  rw [h.inline, hother]
  by_cases hinside : (!forceExternal && data.length < Deployment.inlineLimit) = true
  · rw [if_pos hinside, if_pos hinside]
    exact ⟨_, rfl, rfl⟩
  · rw [if_neg hinside, if_neg hinside]
    exact ⟨_, rfl, rfl⟩

theorem obtain_same (h : Indistinct files search context other session session') (key : String)
    (kind : SharedKind) (initial : kind.Carrier) :
    (session.obtain key kind initial).1 = (session'.obtain key kind initial).1 ∧
      Indistinct files search context other (session.obtain key kind initial).2
        (session'.obtain key kind initial).2 := by
  obtain ⟨hagrees, hinline, ⟨hleft, hright, hcache, hactive⟩⟩ := h
  unfold Session.obtain
  rw [← hactive, ← hcache]
  split
  · exact ⟨rfl, hagrees, hinline, hleft, hright, hcache, hactive⟩
  · exact ⟨rfl, hagrees, hinline, ⟨hleft.1, hleft.2, hleft.3⟩, ⟨hright.1, hright.2, hright.3⟩, rfl, rfl⟩

theorem originComment (h : Indistinct files search context other session session') (origin : String) :
    context.originComment origin = other.originComment origin := by
  unfold Context.originComment
  rw [h.agrees.stripComments]

end Indistinct

namespace Generator

/-- No call of the generator can tell sessions apart that differ in what their finders remember. -/
structure Oblivious (generator : Generator) : Prop where
  init : ∀ {files search context other session session'} memory,
    Indistinct files search context other session session' →
    Outcome.Same files search (generator.init context session memory)
      (generator.init other session' memory)
  prepare : ∀ {files search context other session session'} accessor locale memory,
    Indistinct files search context other session session' →
    Outcome.Same files search (generator.prepare accessor locale context session memory)
      (generator.prepare accessor locale other session' memory)
  createFields : ∀ {files search context other session session'} registry memory,
    Indistinct files search context other session session' →
    Outcome.Same files search
      ((generator.createFields registry context session memory).run registry).1
      ((generator.createFields registry other session' memory).run registry).1 ∧
    ((generator.createFields registry context session memory).run registry).2 =
      ((generator.createFields registry other session' memory).run registry).2
  createAssignment : ∀ {files search context other session session'} accessor locale memory,
    Indistinct files search context other session session' →
    Outcome.Same files search (generator.createAssignment accessor locale context session memory)
      (generator.createAssignment accessor locale other session' memory)
  finish : ∀ {files search context other session session'} memory,
    Indistinct files search context other session session' →
    Outcome.Same files search (generator.finish context session memory)
      (generator.finish other session' memory)

theorem oblivious_nested : nested.Oblivious where
  init _ h := ⟨rfl, h.same, rfl⟩
  prepare _ _ _ h := ⟨rfl, h.same, rfl⟩
  createFields _ _ h := ⟨⟨rfl, h.same, rfl⟩, rfl⟩
  createAssignment accessor locale _ h := by
    refine ⟨?_, h.same, rfl⟩
    simp only [nested, nestedPath, h.agrees.bundles]
  finish _ h := ⟨rfl, h.same, rfl⟩

theorem oblivious_text : text.Oblivious where
  init _ h := ⟨rfl, h.same, rfl⟩
  prepare {_ _ context other session session'} accessor locale memory h := by
    obtain ⟨hresult, hnext⟩ := h.resolve accessor locale
    rcases hresolve : session.resolve context accessor locale with ⟨result, next⟩
    rcases hresolve' : session'.resolve other accessor locale with ⟨result', next'⟩
    rw [hresolve, hresolve'] at hresult hnext
    obtain rfl : result = result' := hresult
    cases result with
    | error error =>
      simp only [text, hresolve, hresolve']
      exact ⟨rfl, hnext.same, rfl⟩
    | ok resource =>
      simp only [text, hresolve, hresolve']
      cases resource.bytes.text? <;> exact ⟨rfl, hnext.same, rfl⟩
  createFields _ _ h := ⟨⟨rfl, h.same, rfl⟩, rfl⟩
  createAssignment accessor locale memory h := by
    simp only [text, h.originComment]
    split <;> exact ⟨rfl, h.same, rfl⟩
  finish _ h := ⟨rfl, h.same, rfl⟩

theorem oblivious_data : data.Oblivious where
  init _ h := ⟨rfl, h.same, rfl⟩
  prepare {_ _ context other session session'} accessor locale memory h := by
    obtain ⟨hresult, hnext⟩ := h.resolve accessor locale
    rcases hresolve : session.resolve context accessor locale with ⟨result, next⟩
    rcases hresolve' : session'.resolve other accessor locale with ⟨result', next'⟩
    rw [hresolve, hresolve'] at hresult hnext
    obtain rfl : result = result' := hresult
    cases result with
    | error error =>
      simp only [data, hresolve, hresolve']
      exact ⟨rfl, hnext.same, rfl⟩
    | ok resource =>
      obtain ⟨deployed, hdeploy, hdeploy'⟩ := hnext.deploy resource.fileName
        (accessor.mimeType.getD (Mime.ofFileName resource.fileName)) resource.bytes (!accessor.embed)
      simp only [data, hresolve, hresolve', hdeploy, hdeploy']
      cases deployed <;> exact ⟨rfl, hnext.same, rfl⟩
  createFields _ _ h := ⟨⟨rfl, h.same, rfl⟩, rfl⟩
  createAssignment accessor locale memory h := by
    simp only [data, h.originComment]
    split <;> exact ⟨rfl, h.same, rfl⟩
  finish _ h := ⟨rfl, h.same, rfl⟩

theorem deployImage_same (h : Indistinct files search context other session session')
    (table : ImageTable) (key : String) (resource : Resource) (format : Image.Format)
    (forceExternal : Bool) :
    ∃ result,
      deployImage context session table key resource format forceExternal = (result, session) ∧
      deployImage other session' table key resource format forceExternal = (result, session') := by
  unfold deployImage
  split
  · exact ⟨_, rfl, rfl⟩
  · obtain ⟨deployed, hdeploy, hdeploy'⟩ :=
      h.deploy resource.fileName format.mimeType resource.bytes forceExternal
    rw [hdeploy, hdeploy']
    cases deployed <;> exact ⟨_, rfl, rfl⟩

theorem oblivious_image : image.Oblivious where
  init {_ _ context other session session'} memory h := by
    have hkey : imageTableKey other = imageTableKey context := by
      unfold imageTableKey
      rw [h.agrees.bundle, h.agrees.deployment, h.agrees.locale]
    obtain ⟨hresult, hnext⟩ :=
      h.obtain_same (imageTableKey context) .imageTable memory.tables.length
    simp only [image, hkey]
    rcases hobtain : session.obtain (imageTableKey context) .imageTable
      memory.tables.length with ⟨result, next⟩
    rcases hobtain' : session'.obtain (imageTableKey context) .imageTable
      memory.tables.length with ⟨result', next'⟩
    rw [hobtain, hobtain'] at hresult hnext
    obtain rfl : result = result' := hresult
    cases result <;> exact ⟨rfl, hnext.same, rfl⟩
  prepare {_ _ context other session session'} accessor locale memory h := by
    obtain ⟨hresult, hnext⟩ := h.resolve accessor locale
    rcases hresolve : session.resolve context accessor locale with ⟨result, next⟩
    rcases hresolve' : session'.resolve other accessor locale with ⟨result', next'⟩
    rw [hresolve, hresolve'] at hresult hnext
    obtain rfl : result = result' := hresult
    cases result with
    | error error =>
      simp only [image, hresolve, hresolve']
      exact ⟨rfl, hnext.same, rfl⟩
    | ok resource =>
      simp only [image, hresolve, hresolve']
      split
      · exact ⟨rfl, hnext.same, rfl⟩
      · exact ⟨rfl, hnext.same, rfl⟩
      · rename_i header table _ _
        obtain ⟨deployed, hdeploy, hdeploy'⟩ := deployImage_same hnext table
          (resource.origin ++ ":" ++ toString (!accessor.embed)) resource header.format (!accessor.embed)
        rw [hdeploy, hdeploy']
        cases deployed <;> exact ⟨rfl, hnext.same, rfl⟩
  createFields registry memory h := by
    simp only [image]
    split
    · exact ⟨⟨rfl, h.same, rfl⟩, rfl⟩
    · rw [run_bind, run_bind]
      exact ⟨⟨rfl, h.same, rfl⟩, rfl⟩
  createAssignment accessor locale memory h := by
    simp only [image, h.originComment]
    exact ⟨rfl, h.same, rfl⟩
  finish _ h := ⟨rfl, h.same, rfl⟩

end Generator

end BundleForge
