import BundleForge.Pass
import BundleForge.Proofs.Deployment
import BundleForge.Proofs.Dispatch
/-!
# What generators hand over to the deployment

A generator may hand the resource it finds for an accessor over to the deployment while it prepares that
accessor. The data generator does so with any resource, the image generator with an image it has not deployed
before, the others never; and a resource that fits into its URL is kept out of the files.
-/

namespace BundleForge

/-- The generators that there are. -/
def GeneratorKind.builtIn : List GeneratorKind := [.text, .data, .image, .bundle]

/-- Nothing but these generators is registered. -/
def Registry.BuiltIn (registry : Registry) : Prop :=
  ∀ kind, kind = registry.nested ∨ kind ∈ registry.kinds.values → kind ∈ GeneratorKind.builtIn

theorem Registry.builtIn_standard : Registry.standard.BuiltIn := by
  have hkinds : Registry.standard.kinds.values = [.text, .data, .image, .bundle] := rfl
  rintro kind (rfl | hkind)
  · exact .tail _ (.tail _ (.tail _ (.head _)))
  · rwa [hkinds] at hkind

theorem Registry.BuiltIn.kind_mem {registry : Registry} (h : registry.BuiltIn) {hierarchy : Hierarchy}
    {bundle : Bundle} : ∀ task ∈ (Dispatch.ofBundle registry hierarchy bundle).tasks,
      task.kind ∈ GeneratorKind.builtIn :=
  fun task htask => h task.kind ((Dispatch.grouped_ofBundle registry hierarchy bundle).kind_mem htask)

/-- A generator that is about to prepare an accessor, with the session it finds. -/
structure Handling where
  running : Running
  accessor : Accessor
  session : Session

namespace Handling

/-- The generator found a resource. -/
def Found (context : Context) (handling : Handling) (resource : Resource) : Prop :=
  (handling.session.resolve context handling.accessor
    (handling.accessor.effectiveLocale context.locale)).1 = .ok resource

/-- The key under which the image generator remembers what it deployed. -/
def imageKey (handling : Handling) (resource : Resource) : String :=
  resource.origin ++ ":" ++ toString (!handling.accessor.embed)

/-- The generator deploys what it found: the data generator any resource, and the image generator an image it
has not deployed before. -/
inductive Deploys (handling : Handling) (resource : Resource) : Prop
  | data {memory : OrderedMap String Generator.DeployedData} {served : List Accessor}
      (is : handling.running = ⟨.data, memory, served⟩)
  | image {memory : Generator.ImageMemory} {served : List Accessor} {header : Image.Header}
      {table : Generator.ImageTable} (is : handling.running = ⟨.image, memory, served⟩)
      (recognized : Image.sniff? resource.bytes = some header) (inUse : memory.table? = .ok table)
      (new : table.images.contains (handling.imageKey resource) = false)

/-- The payload cannot be part of its URL. -/
def Outside (handling : Handling) (resource : Resource) : Prop :=
  handling.accessor.embed = false ∨ Deployment.inlineLimit ≤ resource.bytes.length

structure Hands (context : Context) (handling : Handling) (resource : Resource) : Prop where
  found : handling.Found context resource
  deploys : handling.Deploys resource
  outside : handling.Outside resource

/-- The resource is written under this path. -/
structure Writes (context : Context) (handling : Handling) (resource : Resource) (path : Path) : Prop
    where
  hands : handling.Hands context resource
  written : ∃ dir urlPrefix, context.deployment = .external dir urlPrefix ∧
    path = Deployment.payloadPath dir resource.fileName resource.bytes ∧
    Deployment.Writes handling.session.files dir resource.fileName resource.bytes

/-- What the call that prepares the accessor comes to. -/
def result (context : Context) (handling : Handling) : Except ResourceError Unit :=
  (handling.running.kind.generator.prepare handling.accessor
    (handling.accessor.effectiveLocale context.locale) context handling.session
    handling.running.memory).1

def next (context : Context) (handling : Handling) : FileSystem :=
  (handling.running.kind.generator.prepare handling.accessor
    (handling.accessor.effectiveLocale context.locale) context handling.session
    handling.running.memory).2.1.files

end Handling

/-! ### What each generator hands over -/

theorem Session.files_deploy (context : Context) (session : Session) (fileName mimeType : String)
    (data : Bytes) (forceExternal : Bool) :
    (session.deploy context fileName mimeType data forceExternal).2.files =
      if forceExternal = false ∧ data.length < Deployment.inlineLimit then session.files
      else context.deployment.deposit session.files fileName data :=
  context.deployment.files_url session.files fileName mimeType data forceExternal

theorem Session.files_obtain (session : Session) (key : String) (kind : SharedKind)
    (initial : kind.Carrier) : (session.obtain key kind initial).2.files = session.files := by
  rw [obtain]
  split <;> rfl

namespace Handling

variable {context : Context} {served : List Accessor} {accessor : Accessor}
  {session : Session} {resource : Resource} {handling : Handling}

theorem outside_iff : handling.Outside resource ↔
    ¬ ((!handling.accessor.embed) = false ∧ resource.bytes.length < Deployment.inlineLimit) := by
  rw [Outside, not_and_or, Bool.not_eq_false', Nat.not_lt]
  cases handling.accessor.embed <;> simp

theorem Hands.unique {other : Resource} (h : handling.Hands context resource)
    (h' : handling.Hands context other) : other = resource :=
  Except.ok.inj (h'.found.symm.trans h.found)

/-- What is handed over in a step, and what the step leaves of the files. -/
def Steps (context : Context) (handling : Handling) : Prop :=
  (∃ resource, handling.Hands context resource ∧ handling.next context =
    context.deployment.deposit handling.session.files resource.fileName resource.bytes) ∨
  (∀ resource, ¬ handling.Hands context resource) ∧ handling.next context = handling.session.files

theorem Deploys.id_or (h : handling.Deploys resource) :
    handling.running.kind.id = GeneratorKind.data.id ∨
      handling.running.kind.id = GeneratorKind.image.id := by
  cases h with
  | data is => exact Or.inl (congrArg (·.kind.id) is)
  | image is _ _ _ => exact Or.inr (congrArg (·.kind.id) is)

theorem steps_idle (hdata : handling.running.kind.id ≠ GeneratorKind.data.id)
    (himage : handling.running.kind.id ≠ GeneratorKind.image.id)
    (hnext : handling.next context = handling.session.files) : Steps context handling :=
  Or.inr ⟨fun _ hands => hands.deploys.id_or.elim hdata himage, hnext⟩

theorem steps_deploy {mimeType : String} {found : Session}
    (hfiles : found.files = handling.session.files) (hfound : handling.Found context resource)
    (hdeploys : handling.Deploys resource)
    (hnext : handling.next context = (found.deploy context resource.fileName mimeType resource.bytes
      (!handling.accessor.embed)).2.files) : Steps context handling := by
  rw [Session.files_deploy, hfiles] at hnext
  split at hnext
  · rename_i hinside
    right
    refine ⟨fun other hands => ?_, hnext⟩
    obtain rfl := Except.ok.inj (hands.found.symm.trans hfound)
    exact outside_iff.1 hands.outside hinside
  · rename_i houtside
    left
    exact ⟨resource, ⟨hfound, hdeploys, outside_iff.2 houtside⟩, hnext⟩

theorem steps_text {memory : GeneratorKind.text.generator.Memory} :
    Steps context ⟨⟨.text, memory, served⟩, accessor, session⟩ := by
  apply steps_idle
  · show GeneratorKind.text.id ≠ GeneratorKind.data.id
    decide
  · show GeneratorKind.text.id ≠ GeneratorKind.image.id
    decide
  · dsimp only [next, GeneratorKind.text, Generator.text]
    split
    · rename_i hresolve
      exact congrArg (fun r => r.2.files) hresolve.symm
    · rename_i hresolve
      split <;> exact congrArg (fun r => r.2.files) hresolve.symm

theorem steps_bundle {memory : GeneratorKind.bundle.generator.Memory} :
    Steps context ⟨⟨.bundle, memory, served⟩, accessor, session⟩ := by
  apply steps_idle
  · show GeneratorKind.bundle.id ≠ GeneratorKind.data.id
    decide
  · show GeneratorKind.bundle.id ≠ GeneratorKind.image.id
    decide
  · rfl

theorem steps_missing {error : ResourceError}
    (hmissing : (handling.session.resolve context handling.accessor
      (handling.accessor.effectiveLocale context.locale)).1 = .error error)
    (hnext : handling.next context = handling.session.files) : Steps context handling := by
  refine Or.inr ⟨fun resource hands => ?_, hnext⟩
  have hfound := hands.found
  rw [Found, hmissing] at hfound
  simp at hfound

theorem steps_data {memory : OrderedMap String Generator.DeployedData} :
    Steps context ⟨⟨.data, memory, served⟩, accessor, session⟩ := by
  rcases hresolve : session.resolve context accessor (accessor.effectiveLocale context.locale) with
    ⟨result, found⟩
  have hfiles : found.files = session.files := congrArg (fun r => r.2.files) hresolve.symm
  cases result with
  | error error =>
    apply steps_missing (congrArg Prod.fst hresolve)
    simp only [next, GeneratorKind.data, Generator.data, hresolve, hfiles]
  | ok resource =>
    have hfound : Found context ⟨⟨.data, memory, served⟩, accessor, session⟩ resource :=
      congrArg Prod.fst hresolve
    apply steps_deploy hfiles hfound (.data rfl)
    simp only [next, GeneratorKind.data, Generator.data, hresolve]
    split <;> rename_i hdeploy <;> rw [hdeploy]

theorem deploys_iff_of_image {memory : Generator.ImageMemory} :
    Deploys ⟨⟨.image, memory, served⟩, accessor, session⟩ resource ↔
      ∃ header table, Image.sniff? resource.bytes = some header ∧ memory.table? = .ok table ∧
        table.images.contains (imageKey ⟨⟨.image, memory, served⟩, accessor, session⟩ resource) = false := by
  constructor
  · rintro (⟨is⟩ | ⟨is, recognized, inUse, new⟩)
    · have hid : GeneratorKind.image.id = GeneratorKind.data.id := congrArg (·.kind.id) is
      exact absurd hid (by decide)
    · obtain ⟨-, hmemory, -⟩ := Running.mk.inj is
      obtain rfl := eq_of_heq hmemory
      exact ⟨_, _, recognized, inUse, new⟩
  · rintro ⟨header, table, recognized, inUse, new⟩
    exact .image rfl recognized inUse new

theorem files_deployImage (context : Context) (session : Session) (table : Generator.ImageTable)
    (key : String) (resource : Resource) (format : Image.Format) (forceExternal : Bool) :
    (Generator.deployImage context session table key resource format forceExternal).2.files =
      if table.images.contains key then session.files
      else (session.deploy context resource.fileName format.mimeType resource.bytes
        forceExternal).2.files := by
  unfold Generator.deployImage
  split
  · rfl
  · split <;> rename_i hdeploy <;> rw [hdeploy]

theorem steps_kept (hfound : handling.Found context resource) (hkept : ¬ handling.Deploys resource)
    (hnext : handling.next context = handling.session.files) : Steps context handling := by
  refine Or.inr ⟨fun other hands => hkept ?_, hnext⟩
  obtain rfl := Except.ok.inj (hands.found.symm.trans hfound)
  exact hands.deploys

theorem steps_image {memory : Generator.ImageMemory} :
    Steps context ⟨⟨.image, memory, served⟩, accessor, session⟩ := by
  rcases hresolve : session.resolve context accessor (accessor.effectiveLocale context.locale) with
    ⟨result, found⟩
  have hfiles : found.files = session.files := congrArg (fun r => r.2.files) hresolve.symm
  cases result with
  | error error =>
    apply steps_missing (congrArg Prod.fst hresolve)
    simp only [next, GeneratorKind.image, Generator.image, hresolve, hfiles]
  | ok resource =>
    have hfound : Found context ⟨⟨.image, memory, served⟩, accessor, session⟩ resource :=
      congrArg Prod.fst hresolve
    cases hheader : Image.sniff? resource.bytes with
    | none =>
      apply steps_kept hfound
      · simp [deploys_iff_of_image, hheader]
      · simp only [next, GeneratorKind.image, Generator.image, hresolve, hheader, hfiles]
    | some header =>
      cases htable : memory.table? with
      | error error =>
        apply steps_kept hfound
        · simp [deploys_iff_of_image, htable]
        · simp only [next, GeneratorKind.image, Generator.image, hresolve, hheader, htable, hfiles]
      | ok table =>
        have hnext : next context ⟨⟨.image, memory, served⟩, accessor, session⟩ =
            (Generator.deployImage context found table
              (imageKey ⟨⟨.image, memory, served⟩, accessor, session⟩ resource) resource
              header.format (!accessor.embed)).2.files := by
          simp only [next, imageKey, GeneratorKind.image, Generator.image, hresolve, hheader, htable]
          split <;> rename_i hdeploy <;> rw [hdeploy]
        rw [files_deployImage] at hnext
        split at hnext
        · rename_i hold
          apply steps_kept hfound ?_ (hnext.trans hfiles)
          simp [deploys_iff_of_image, htable, hold]
        · rename_i hnew
          exact steps_deploy hfiles hfound (.image rfl hheader htable (Bool.not_eq_true _ ▸ hnew)) hnext

theorem steps (context : Context) (hkind : handling.running.kind ∈ GeneratorKind.builtIn) :
    Steps context handling := by
  obtain ⟨⟨kind, memory, served⟩, accessor, session⟩ := handling
  simp only [GeneratorKind.builtIn, List.mem_cons, List.not_mem_nil, or_false] at hkind
  rcases hkind with rfl | rfl | rfl | rfl
  · exact steps_text
  · exact steps_data
  · exact steps_image
  · exact steps_bundle

end Handling

end BundleForge
