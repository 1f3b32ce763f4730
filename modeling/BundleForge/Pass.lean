import BundleForge.Dispatch
import BundleForge.Implementation.Source
import BundleForge.Sink
/-!
# One pass

A pass generates the implementation of one bundle for one locale. It claims the type, dispatches the
accessors, and takes the generators through their phases; every phase runs to its end and collects
the errors it meets, and a phase that met one is the last. The source is committed only after the
last phase.

The pass keeps a journal of the calls it makes. Each call is made in one place, `Running.call`, which
also writes the entry, and the diagnostics of a pass are read off its journal.
-/

namespace BundleForge

inductive Step where
  | init
  | prepare (accessor : Accessor)
  | createFields
  | createAssignment (accessor : Accessor)
  | finish
deriving DecidableEq

/-- The accessor a call is about, which takes the blame for its failure. -/
def Step.accessor? : Step → Option Accessor
  | init | createFields | finish => none
  | prepare accessor | createAssignment accessor => some accessor

structure Call where
  generator : GeneratorId
  step : Step
  /-- The generator that was selected when the call was made. -/
  active : Option GeneratorId
  failure : Option ResourceError
  /-- The generator that was selected when the call was over. -/
  left : Option GeneratorId

abbrev Journal := List Call

structure Plan where
  hierarchy : Hierarchy
  bundles : Bundles
  registry : Registry := .standard
  deployment : Deployment := .inline
  stripComments : Bool := false

def Plan.context (plan : Plan) (bundle : Bundle) (locale : Option String) : Context :=
  { bundle, locale, hierarchy := plan.hierarchy, bundles := plan.bundles,
    deployment := plan.deployment, stripComments := plan.stripComments }

structure Running where
  kind : GeneratorKind
  memory : kind.generator.Memory
  accessors : List Accessor

namespace Running

def ofTask (task : Task) : Running := ⟨task.kind, task.kind.generator.fresh, task.accessors⟩

def id (running : Running) : GeneratorId := running.kind.id

def error? {α : Type} : Except ResourceError α → Option ResourceError
  | .ok _ => none
  | .error error => some error

def entry {α : Type} (running : Running) (step : Step) (session : Session)
    (result : Except ResourceError α) (next : Session) : Call :=
  ⟨running.id, step, session.active, error? result, next.active⟩

def call {α : Type} (running : Running) (step : Step) (context : Context) (session : Session)
    (work : Context → Session → running.kind.generator.Memory →
      Outcome running.kind.generator.Memory α) :
    Except ResourceError α × Session × Running × Call :=
  let (result, next, memory) := work context session running.memory
  (result, next, { running with memory }, running.entry step session result next)

end Running

namespace Pass

/-! ## Preparing -/

def prepareEach (context : Context) (session : Session) (running : Running) :
    List Accessor → Session × Running × Journal
  | [] => (session, running, [])
  | accessor :: rest =>
    let (_, session, running, entry) :=
      running.call (.prepare accessor) context session
        (running.kind.generator.prepare accessor (accessor.effectiveLocale context.locale))
    let (session, running, journal) := prepareEach context session running rest
    (session, running, entry :: journal)

/-- Starts the generator of a task. Its accessors are prepared only if it could be started. -/
def prepareTask (context : Context) (session : Session) (task : Task) :
    Session × Running × Journal :=
  let running := Running.ofTask task
  let session := session.select running.id
  let (result, session, running, entry) :=
    running.call .init context session running.kind.generator.init
  match result with
  | .error _ => (session, running, [entry])
  | .ok () =>
    let (session, running, journal) := prepareEach context session running running.accessors
    (session, running, entry :: journal)

def prepareAll (context : Context) (session : Session) :
    List Task → Session × List Running × Journal
  | [] => (session, [], [])
  | task :: rest =>
    let (session, running, journal) := prepareTask context session task
    let (session, others, more) := prepareAll context session rest
    (session, running :: others, journal ++ more)

/-! ## Emitting -/

def createFields (context : Context) (session : Session) (registry : FieldRegistry) :
    List Running → Session × FieldRegistry × List Running × Journal
  | [] => (session, registry, [], [])
  | running :: rest =>
    let session := session.select running.id
    let ((result, next, memory), registry) :=
      (running.kind.generator.createFields registry context session running.memory).run registry
    let entry := running.entry .createFields session result next
    let (session, registry, others, journal) := createFields context next registry rest
    (session, registry, { running with memory } :: others, entry :: journal)

/-- The request for the static that holds the value of an accessor. -/
def slotRequest (accessor : Accessor) : FieldRequest :=
  ⟨Implementation.slotType accessor.kind, accessor.name, none, true, true⟩

def defineSlots (registry : FieldRegistry) : List Accessor → List String × FieldRegistry
  | [] => ([], registry)
  | accessor :: rest =>
    let request := slotRequest accessor
    let (slots, last) := defineSlots (registry.define request) rest
    (registry.identFor request :: slots, last)

structure Assignment where
  expression : String
  isPrototype : Bool

abbrev Assignments := OrderedMap String Assignment

def assignEach (context : Context) (session : Session) (running : Running)
    (assignments : Assignments) : List Accessor → Session × Running × Assignments × Journal
  | [] => (session, running, assignments, [])
  | accessor :: rest =>
    let isPrototype := running.kind.generator.producesPrototype
    let (result, session, running, entry) :=
      running.call (.createAssignment accessor) context session
        (running.kind.generator.createAssignment accessor
          (accessor.effectiveLocale context.locale))
    let assignments :=
      match result with
      | .ok expression => assignments.insert accessor.name ⟨expression, isPrototype⟩
      | .error _ => assignments
    let (session, running, assignments, journal) :=
      assignEach context session running assignments rest
    (session, running, assignments, entry :: journal)

def assignAll (context : Context) (session : Session) (assignments : Assignments) :
    List Running → Session × List Running × Assignments × Journal
  | [] => (session, [], assignments, [])
  | running :: rest =>
    let session := session.select running.id
    let (session, running, assignments, journal) :=
      assignEach context session running assignments running.accessors
    let (session, others, assignments, more) := assignAll context session assignments rest
    (session, running :: others, assignments, journal ++ more)

/-- Joins accessors with their slots and expressions; an expression is used once. -/
def joinCode (assignments : Assignments) : List (Accessor × String) → List AccessorCode
  | [] => []
  | (accessor, slot) :: rest =>
    match assignments.get? accessor.name with
    | none => joinCode assignments rest
    | some assignment =>
      ⟨accessor, slot, assignment.expression, assignment.isPrototype⟩ ::
        joinCode (assignments.erase accessor.name) rest

def implemented (plan : Plan) (bundle : Bundle) : List TypeName :=
  ((plan.hierarchy.parents? bundle.name).getD []).filter plan.bundles.contains

/-! ## Finishing -/

def finishAll (context : Context) (session : Session) :
    List Running → Session × List Running × Journal
  | [] => (session, [], [])
  | running :: rest =>
    let session := session.select running.id
    let (_, session, running, entry) :=
      running.call .finish context session running.kind.generator.finish
    let (session, others, journal) := finishAll context session rest
    (session, running :: others, entry :: journal)

/-! ## The whole pass -/

def diagnostics (bundle : Bundle) (phase : Phase) (journal : Journal) : List Diagnostic :=
  journal.filterMap fun call =>
    call.failure.map fun error =>
      ⟨bundle.name, call.step.accessor?.map (·.name), phase, error⟩

structure Work where
  session : Session
  result : Except (List Diagnostic) String
  journal : Journal

def work (plan : Plan) (bundle : Bundle) (locale : Option String) (session : Session)
    (tasks : List Task) : Work :=
  let context := plan.context bundle locale
  let (session, generators, preparing) := prepareAll context session tasks
  match diagnostics bundle .preparing preparing with
  | first :: rest => ⟨session, .error (first :: rest), preparing⟩
  | [] =>
    let (session, fields, generators, defining) := createFields context session .empty generators
    let (slots, fields) := defineSlots fields bundle.accessors
    let (session, generators, assignments, assigning) :=
      assignAll context session .empty generators
    let emitting := defining ++ assigning
    match diagnostics bundle .emitting emitting with
    | first :: rest => ⟨session, .error (first :: rest), preparing ++ emitting⟩
    | [] =>
      let source :=
        Assembly.source
          { bundle, simpleName := bundle.implementation locale, locale,
            supertypes := implemented plan bundle, fields,
            accessors := joinCode assignments (bundle.accessors.zip slots) }
      let (session, _, finishing) := finishAll context session generators
      let journal := preparing ++ emitting ++ finishing
      match diagnostics bundle .finishing finishing with
      | first :: rest => ⟨session, .error (first :: rest), journal⟩
      | [] => ⟨session, .ok source, journal⟩

end Pass

structure GeneratedType where
  bundle : TypeName
  locale : Option String
  qualifiedName : String
  path : Option Path
deriving DecidableEq

inductive PassResult where
  | generated (type : GeneratedType)
  /-- The type had been claimed before. -/
  | skipped
  | failed (pass : FailedPass)
deriving DecidableEq

structure World (σ : Type) where
  files : FileSystem
  finder : Finder
  sink : σ

structure Pass (σ : Type) where
  world : World σ
  result : PassResult
  journal : Journal
  committed : Bool

namespace Pass

variable {σ : Type} [Sink σ]

def failWith (bundle : Bundle) (locale : Option String) (diagnostics : List Diagnostic) :
    PassResult :=
  .failed ⟨bundle.name, locale, diagnostics⟩

def commit (bundle : Bundle) (locale : Option String) (world : World σ) (claim : Claim)
    (source : String) (journal : Journal) : Pass σ :=
  let (result, files, sink) := Sink.commit world.sink world.files claim source
  let world := { world with files, sink }
  match result with
  | .error error =>
    ⟨world, failWith bundle locale [⟨bundle.name, none, .finishing, error⟩], journal, true⟩
  | .ok path => ⟨world, .generated ⟨bundle.name, locale, claim.qualifiedName, path⟩, journal, true⟩

def run (plan : Plan) (bundle : Bundle) (locale : Option String) (world : World σ) : Pass σ :=
  let wanted : Claim := ⟨bundle.name.modulePath, bundle.implementation locale⟩
  let (granted, sink) := Sink.claim world.sink wanted
  let world := { world with sink }
  match granted with
  | .error error =>
    ⟨world, failWith bundle locale [⟨bundle.name, none, .initializing, error⟩], [], false⟩
  | .ok none => ⟨world, .skipped, [], false⟩
  | .ok (some claim) =>
    let dispatch := Dispatch.ofBundle plan.registry plan.hierarchy bundle
    match dispatch.diagnostics bundle with
    | first :: rest => ⟨world, failWith bundle locale (first :: rest), [], false⟩
    | [] =>
      let work := work plan bundle locale ⟨world.files, world.finder, .empty, none⟩ dispatch.tasks
      let world := { world with files := work.session.files, finder := work.session.finder }
      match work.result with
      | .error diagnostics => ⟨world, failWith bundle locale diagnostics, work.journal, false⟩
      | .ok source => commit bundle locale world claim source work.journal

end Pass

end BundleForge
