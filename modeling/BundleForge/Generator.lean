import BundleForge.Deployment
import BundleForge.Field
import BundleForge.Hierarchy
import BundleForge.Literal
import BundleForge.Search.Finder
import BundleForge.SharedCache
/-!
# Generators

A generator serves the accessors of one kind during a pass. It is called phase by phase: `init` once,
`prepare` for each of its accessors, `createFields` once, `createAssignment` for each accessor and
`finish` once. Every phase may fail, and what it changed before it failed stays changed. A generator
reads the context, changes the session that all generators of a pass share, and keeps a memory of its
own; fields it can only ask for. Values are shared under the name of the generator that is selected in
the session. A pass selects the generator whose turn it is, and any generator may select another.
-/

namespace BundleForge

structure Context where
  bundle : Bundle
  locale : Option String
  hierarchy : Hierarchy
  bundles : Bundles
  deployment : Deployment
  stripComments : Bool

namespace Context

def originComment (context : Context) (origin : String) : String :=
  if context.stripComments then ""
  else
    "// " ++ origin.map (fun c => if c = '\n' ∨ c = '\r' then ' ' else c) ++ "\n"

end Context

structure Session where
  files : FileSystem
  finder : Finder
  cache : SharedCache
  /-- The generator under whose name values are kept. -/
  active : Option GeneratorId

/-- The result of a phase, with the session and the memory it leaves. -/
abbrev Outcome (Memory α : Type) := Except ResourceError α × Session × Memory

structure Generator where
  Memory : Type
  fresh : Memory
  init : Context → Session → Memory → Outcome Memory Unit :=
    fun _ session memory => (.ok (), session, memory)
  /-- Resolves what an accessor needs; the locale is that of the accessor. -/
  prepare : Accessor → Option String → Context → Session → Memory → Outcome Memory Unit :=
    fun _ _ _ session memory => (.ok (), session, memory)
  createFields : FieldRegistry → Context → Session → Memory → FieldProgram (Outcome Memory Unit) :=
    fun _ _ session memory => .done (.ok (), session, memory)
  createAssignment : Accessor → Option String → Context → Session → Memory → Outcome Memory String
  finish : Context → Session → Memory → Outcome Memory Unit :=
    fun _ session memory => (.ok (), session, memory)
  /-- Whether its values are resources, which a bundle lists and looks up by name. -/
  producesPrototype : Bool := true

namespace Session

def select (session : Session) (id : GeneratorId) : Session := { session with active := some id }

/-- The value the selected generator keeps under a key, stored first if it is missing. -/
def obtain (session : Session) (key : String) (kind : SharedKind) (initial : kind.Carrier) :
    Except ResourceError kind.Carrier × Session :=
  match session.active with
  | none => (.error (.generation "shared cache used outside a generator"), session)
  | some generator =>
    let (value, cache) := session.cache.obtain generator key kind initial
    (.ok value, { session with cache })

def resolve (session : Session) (context : Context) (accessor : Accessor)
    (locale : Option String) : Except ResourceError Resource × Session :=
  let extensions := context.hierarchy.defaultExtensions accessor.kind
  let (handles, finder) :=
    session.finder.findResources session.files context.bundle accessor extensions locale
  (do finder.search.load session.files (← exactlyOne (← handles)), { session with finder })

def deploy (session : Session) (context : Context) (fileName mimeType : String) (data : Bytes)
    (forceExternal : Bool) : Except ResourceError String × Session :=
  let (url, files) := context.deployment.url session.files fileName mimeType data forceExternal
  (url.map Literal.stringExpression, { session with files })

end Session

namespace Generator

def notPrepared (accessor : Accessor) : ResourceError :=
  .generation s!"{accessor.name} was not prepared"

end Generator

end BundleForge
