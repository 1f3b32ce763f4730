import BundleForge.Proofs.Dispatch
import BundleForge.Proofs.Pass.Phases
/-!
# How a pass may go

A pass ends in one of a few ways, and so does the work of its generators: each phase is run to its end, and
the first one with a failed call is the last. `Course` and `Ends` list these ways, each with what must have
happened before and with all that is left behind.
-/

namespace BundleForge.Pass

/-- The state after the generators of some tasks asked for their fields. -/
def defined (plan : Plan) (bundle : Bundle) (locale : Option String) (session : Session)
    (tasks : List Task) : Session × FieldRegistry × List Running × Journal :=
  let context := plan.context bundle locale
  let (session, generators, _) := prepareAll context session tasks
  createFields context session .empty generators

def answersOf (plan : Plan) (bundle : Bundle) (locale : Option String) (session : Session)
    (tasks : List Task) : List Answer :=
  let (session, _, generators, _) := defined plan bundle locale session tasks
  (answersAll (plan.context bundle locale) session generators).2.2

/-- What the module of a bundle is put together from once all answers are there. -/
def assembly (plan : Plan) (bundle : Bundle) (locale : Option String) (session : Session)
    (tasks : List Task) : Assembly :=
  let (slots, fields) :=
    defineSlots (defined plan bundle locale session tasks).2.1 bundle.accessors
  { bundle, simpleName := bundle.implementation locale, locale,
    supertypes := implemented plan bundle, fields,
    accessors := joinCode ((answersOf plan bundle locale session tasks).foldl take .empty)
      (bundle.accessors.zip slots) }

def Clean (journal : Journal) : Prop := ∀ call ∈ journal, call.failure = none

section

variable (plan : Plan) (bundle : Bundle) (locale : Option String) (session : Session)
  (tasks : List Task)

def prepared : Session × List Running × Journal :=
  prepareAll (plan.context bundle locale) session tasks

def preparing : Journal := (prepared plan bundle locale session tasks).2.2

def answered : Session × List Running × List Answer :=
  answersAll (plan.context bundle locale) (defined plan bundle locale session tasks).1
    (defined plan bundle locale session tasks).2.2.1

def emitting : Journal :=
  (defined plan bundle locale session tasks).2.2.2 ++
    asksAll (plan.context bundle locale) (defined plan bundle locale session tasks).1
      (defined plan bundle locale session tasks).2.2.1

def finished : Session × List Running × Journal :=
  finishAll (plan.context bundle locale) (answered plan bundle locale session tasks).1
    (answered plan bundle locale session tasks).2.1

def finishing : Journal := (finished plan bundle locale session tasks).2.2

/-- The generators stop after the phase that failed, or a source comes out of the last one. -/
inductive Course : Work → Prop
  | preparing (failed : ¬Clean (preparing plan bundle locale session tasks)) :
      Course
        { session := (prepared plan bundle locale session tasks).1
          result := .error
            (diagnostics bundle .preparing (preparing plan bundle locale session tasks))
          journal := preparing plan bundle locale session tasks }
  | emitting (prepare : Clean (preparing plan bundle locale session tasks))
      (failed : ¬Clean (emitting plan bundle locale session tasks)) :
      Course
        { session := (answered plan bundle locale session tasks).1
          result := .error (diagnostics bundle .emitting (emitting plan bundle locale session tasks))
          journal := preparing plan bundle locale session tasks ++
            emitting plan bundle locale session tasks }
  | finishing (prepare : Clean (preparing plan bundle locale session tasks))
      (emit : Clean (emitting plan bundle locale session tasks))
      (failed : ¬Clean (finishing plan bundle locale session tasks)) :
      Course
        { session := (finished plan bundle locale session tasks).1
          result := .error
            (diagnostics bundle .finishing (finishing plan bundle locale session tasks))
          journal := preparing plan bundle locale session tasks ++
            emitting plan bundle locale session tasks ++ finishing plan bundle locale session tasks }
  | done (prepare : Clean (preparing plan bundle locale session tasks))
      (emit : Clean (emitting plan bundle locale session tasks))
      (finish : Clean (finishing plan bundle locale session tasks)) :
      Course
        { session := (finished plan bundle locale session tasks).1
          result := .ok (assembly plan bundle locale session tasks).source
          journal := preparing plan bundle locale session tasks ++
            emitting plan bundle locale session tasks ++ finishing plan bundle locale session tasks }

theorem not_clean_of_diagnostics {phase : Phase} {journal : Journal} {first : Diagnostic}
    {rest : List Diagnostic} (h : diagnostics bundle phase journal = first :: rest) :
    ¬Clean journal := by
  intro hclean
  rw [diagnostics_eq_nil_iff.2 hclean] at h
  simp at h

theorem course_work :
    Course plan bundle locale session tasks (work plan bundle locale session tasks) := by
  unfold work
  dsimp only
  -- The expressions are read off the answers.
  rw [assignAll_eq]
  split
  · rename_i hpreparing
    rw [← hpreparing]
    exact .preparing (not_clean_of_diagnostics bundle hpreparing)
  · rename_i hpreparing
    have hprepared : Clean _ := diagnostics_eq_nil_iff.1 hpreparing
    split
    · rename_i hemitting
      rw [← hemitting]
      exact .emitting hprepared (not_clean_of_diagnostics bundle hemitting)
    · rename_i hemitting
      have hemitted : Clean _ := diagnostics_eq_nil_iff.1 hemitting
      split
      · rename_i hfinishing
        rw [← hfinishing]
        exact .finishing hprepared hemitted (not_clean_of_diagnostics bundle hfinishing)
      · rename_i hfinishing
        exact .done hprepared hemitted (diagnostics_eq_nil_iff.1 hfinishing)

end

section

variable {σ : Type}

/-- The type a pass wants to generate. -/
def wanted (bundle : Bundle) (locale : Option String) : Claim :=
  ⟨bundle.name.modulePath, bundle.implementation locale⟩

def opening (world : World σ) : Session := ⟨world.files, world.finder, .empty, none⟩

def tasksOf (plan : Plan) (bundle : Bundle) : List Task :=
  (Dispatch.ofBundle plan.registry plan.hierarchy bundle).tasks

theorem served_sublist {plan : Plan} {bundle : Bundle} {kind : GeneratorKind} {served : List Accessor}
    (h : ⟨kind, served⟩ ∈ tasksOf plan bundle) : served.Sublist bundle.accessors := by
  have haccessors : served = bundle.accessors.filter _ :=
    (Dispatch.grouped_ofBundle plan.registry plan.hierarchy bundle).accessors_eq _ h
  exact haccessors ▸ List.filter_sublist

def worked (plan : Plan) (bundle : Bundle) (locale : Option String) (world : World σ) : Work :=
  work plan bundle locale (opening world) (tasksOf plan bundle)

end

section

variable {σ : Type} [Sink σ] (plan : Plan) (bundle : Bundle) (locale : Option String)
  (world : World σ)

/-- A pass is not granted its type, or refuses an accessor, or stops with its generators, or hands the source
to the sink, which may not take it. -/
inductive Ends : Pass σ → Prop
  | unclaimed {error : ResourceError} {sink : σ}
      (claimed : Sink.claim world.sink (wanted bundle locale) = (.error error, sink)) :
      Ends
        { world := { world with sink }
          result := failWith bundle locale [⟨bundle.name, none, .initializing, error⟩]
          journal := []
          committed := false }
  | skipped {sink : σ}
      (claimed : Sink.claim world.sink (wanted bundle locale) = (.ok none, sink)) :
      Ends { world := { world with sink }, result := .skipped, journal := [], committed := false }
  | refused {claim : Claim} {sink : σ}
      (claimed : Sink.claim world.sink (wanted bundle locale) = (.ok (some claim), sink))
      (refused : (Dispatch.ofBundle plan.registry plan.hierarchy bundle).refused ≠ []) :
      Ends
        { world := { world with sink }
          result := failWith bundle locale
            ((Dispatch.ofBundle plan.registry plan.hierarchy bundle).diagnostics bundle)
          journal := []
          committed := false }
  | stopped {claim : Claim} {sink : σ} {diagnostics : List Diagnostic}
      (claimed : Sink.claim world.sink (wanted bundle locale) = (.ok (some claim), sink))
      (admitted : (Dispatch.ofBundle plan.registry plan.hierarchy bundle).refused = [])
      (failed : (worked plan bundle locale world).result = .error diagnostics) :
      Ends
        { world :=
            ⟨(worked plan bundle locale world).session.files,
              (worked plan bundle locale world).session.finder, sink⟩
          result := failWith bundle locale diagnostics
          journal := (worked plan bundle locale world).journal
          committed := false }
  | unwritten {claim : Claim} {sink next : σ} {source : String} {error : ResourceError}
      {files : FileSystem}
      (claimed : Sink.claim world.sink (wanted bundle locale) = (.ok (some claim), sink))
      (admitted : (Dispatch.ofBundle plan.registry plan.hierarchy bundle).refused = [])
      (made : (worked plan bundle locale world).result = .ok source)
      (refused : Sink.commit sink (worked plan bundle locale world).session.files claim source =
        (.error error, files, next)) :
      Ends
        { world := ⟨files, (worked plan bundle locale world).session.finder, next⟩
          result := failWith bundle locale [⟨bundle.name, none, .finishing, error⟩]
          journal := (worked plan bundle locale world).journal
          committed := true }
  | generated {claim : Claim} {sink next : σ} {source : String} {path : Option Path}
      {files : FileSystem}
      (claimed : Sink.claim world.sink (wanted bundle locale) = (.ok (some claim), sink))
      (admitted : (Dispatch.ofBundle plan.registry plan.hierarchy bundle).refused = [])
      (made : (worked plan bundle locale world).result = .ok source)
      (taken : Sink.commit sink (worked plan bundle locale world).session.files claim source =
        (.ok path, files, next)) :
      Ends
        { world := ⟨files, (worked plan bundle locale world).session.finder, next⟩
          result := .generated ⟨bundle.name, locale, claim.qualifiedName, path⟩
          journal := (worked plan bundle locale world).journal
          committed := true }

theorem ends_run : Ends plan bundle locale world (run plan bundle locale world) := by
  unfold run
  dsimp only
  rw [show (⟨bundle.name.modulePath, bundle.implementation locale⟩ : Claim)
    = wanted bundle locale from rfl]
  split
  · rename_i error hclaim
    exact .unclaimed (Prod.ext hclaim rfl)
  · rename_i hclaim
    exact .skipped (Prod.ext hclaim rfl)
  · rename_i claim hclaim
    split
    · rename_i first rest hrefused
      rw [← hrefused]
      refine .refused (Prod.ext hclaim rfl) ?_
      intro hnone
      rw [Dispatch.diagnostics_eq_nil_iff.2 hnone] at hrefused
      simp at hrefused
    · rename_i hnone
      have hadmitted := Dispatch.diagnostics_eq_nil_iff.1 hnone
      split
      · rename_i diagnostics hfailed
        exact .stopped (Prod.ext hclaim rfl) hadmitted hfailed
      · rename_i source hmade
        unfold commit
        dsimp only
        split
        · rename_i error hrefused
          exact .unwritten (Prod.ext hclaim rfl) hadmitted hmade (Prod.ext hrefused rfl)
        · rename_i path htaken
          exact .generated (Prod.ext hclaim rfl) hadmitted hmade (Prod.ext htaken rfl)

end

end BundleForge.Pass
