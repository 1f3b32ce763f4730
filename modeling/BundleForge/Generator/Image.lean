import BundleForge.Generator
import BundleForge.Image.Header
import BundleForge.Image.Size
/-!
# Image resources

An image becomes a value with a URL and the size at which it is shown. Accessors with the same
resource and the same decision on embedding share one deployed payload and one static field with its
URL. What is shared is kept in a table; the session remembers which table belongs to the bundle, the
deployment and the locale.
-/

namespace BundleForge.Generator

structure DeployedImage where
  urlExpression : String
  field : Option String

structure ImageUse where
  origin : String
  imageKey : String
  width : UInt32
  height : UInt32
  animated : Bool
  lossy : Bool

structure ImageTable where
  images : OrderedMap String DeployedImage
  uses : OrderedMap String ImageUse

def ImageTable.empty : ImageTable := ⟨.empty, .empty⟩

structure ImageMemory where
  tables : List ImageTable
  inUse : Option Nat

namespace ImageMemory

def table? (memory : ImageMemory) : Except ResourceError ImageTable :=
  match memory.inUse with
  | none => .error (.generation "image generator used before init")
  | some index => .ok ((memory.tables[index]?).getD .empty)

def setTable (memory : ImageMemory) (table : ImageTable) : ImageMemory :=
  match memory.inUse with
  | none => memory
  | some index => { memory with tables := memory.tables.set index table }

/-- Takes up a table; one that is not there yet is added empty. -/
def take (memory : ImageMemory) (index : Nat) : ImageMemory :=
  if index < memory.tables.length then { memory with inUse := some index }
  else ⟨memory.tables ++ [.empty], some memory.tables.length⟩

end ImageMemory

def imageField (urlExpression : String) : FieldRequest :=
  ⟨"::std::string::String", "externalImage", some urlExpression, true, true⟩

def defineImages : List (String × DeployedImage) → FieldProgram (List (String × DeployedImage))
  | [] => pure []
  | (key, image) :: rest => do
    let image ←
      match image.field with
      | some _ => pure image
      | none => do
        let ident ← FieldProgram.request (imageField image.urlExpression)
        pure { image with field := some ident }
    let rest ← defineImages rest
    return (key, image) :: rest

def imageExpression (name field : String) (use : ImageUse) : String :=
  "::bundle_runtime::ImageResourcePrototype::new(" ++ Literal.literal name ++
    s!", ::std::string::String::clone(&{field}), 0, 0, {use.width}, {use.height}, " ++
    s!"{use.animated}, {use.lossy})"

def imageTableKey (context : Context) : String :=
  context.bundle.name.path ++ ":" ++ toString context.deployment.isExternal ++ ":" ++
    context.locale.getD ""

def deployImage (context : Context) (session : Session) (table : ImageTable) (key : String)
    (resource : Resource) (format : Image.Format) (forceExternal : Bool) :
    Except ResourceError ImageTable × Session :=
  if table.images.contains key then (.ok table, session)
  else
    match session.deploy context resource.fileName format.mimeType resource.bytes forceExternal with
    | (.error error, session) => (.error error, session)
    | (.ok url, session) =>
      (.ok { table with images := table.images.insert key ⟨url, none⟩ }, session)

def image : Generator where
  Memory := ImageMemory
  fresh := ⟨[], none⟩
  init context session memory :=
    match session.obtain (imageTableKey context) .imageTable memory.tables.length with
    | (.error error, session) => (.error error, session, memory)
    | (.ok index, session) => (.ok (), session, memory.take index)
  prepare accessor locale context session memory :=
    match session.resolve context accessor locale with
    | (.error error, session) => (.error error, session, memory)
    | (.ok resource, session) =>
      match Image.sniff? resource.bytes, memory.table? with
      | none, _ => (.error (.unknownImage resource.origin), session, memory)
      | some _, .error error => (.error error, session, memory)
      | some header, .ok table =>
        let (width, height) :=
          Image.displaySize header.width header.height accessor.width accessor.height
        let key := resource.origin ++ ":" ++ toString (!accessor.embed)
        match deployImage context session table key resource header.format (!accessor.embed) with
        | (.error error, session) => (.error error, session, memory)
        | (.ok table, session) =>
          let use : ImageUse :=
            ⟨resource.origin, key, width, height, header.animated, header.lossy⟩
          (.ok (), session,
            memory.setTable { table with uses := table.uses.insert accessor.name use })
  createFields _ _ session memory :=
    match memory.table? with
    | .error error => .done (.error error, session, memory)
    | .ok table => do
      let images ← defineImages table.images.entries
      return (.ok (), session, memory.setTable { table with images := .ofList images })
  createAssignment accessor _ context session memory :=
    let expression := do
      let table ← memory.table?
      let use ←
        match table.uses.get? accessor.name with
        | some use => .ok use
        | none => .error (notPrepared accessor)
      let field ←
        match (table.images.get? use.imageKey).bind (·.field) with
        | some field => .ok field
        | none => .error (.generation s!"no image field was created for {accessor.name}")
      return context.originComment use.origin ++ imageExpression accessor.name field use
    (expression, session, memory)

end BundleForge.Generator
