import BundleForge.Proofs.Pass.Memories
import BundleForge.Proofs.Pass.Wiring
import BundleForge.Proofs.Url
/-!
# Data through a pass

The data generator finds the resource of an accessor while the accessor is prepared, has its payload embedded or
deployed, and remembers the expression for the URL by the name of the accessor. When it is asked for the
expression of the accessor, what it answers denotes the URL of that payload. It refuses a resource for its size
exactly if the payload can be neither embedded nor deployed.
-/

namespace BundleForge

open Generator (DeployedData)

namespace Handling

/-- The call fails because the payload can be neither embedded nor deployed. -/
def RefusesSize (context : Context) (handling : Handling) : Prop :=
  ∃ fileName size limit, handling.result context = .error (.inlineLimit fileName size limit)

end Handling

/-- The MIME type of a resource for a data accessor: the declared one, else the one its file name suggests. -/
def Accessor.mimeTypeOf (accessor : Accessor) (resource : Resource) : String :=
  accessor.mimeType.getD (Mime.ofFileName resource.fileName)

namespace Pass

variable {context : Context} {id : GeneratorId} {served : List Accessor}

/-! ### Preparing data -/

/-- The data generator prepares an accessor whose resource is there as the deployment decides on its payload. -/
theorem preparation_data {context : Context} {accessor : Accessor} {locale : Option String}
    {session found : Session} {resource : Resource} (memory : OrderedMap String DeployedData)
    (h : session.resolve context accessor locale = (.ok resource, found)) :
    let deployed := context.deployment.url found.files resource.fileName
      (accessor.mimeTypeOf resource) resource.bytes (!accessor.embed)
    Generator.data.prepare accessor locale context session memory =
      match deployed.1 with
      | .error error => (.error error, { found with files := deployed.2 }, memory)
      | .ok url => (.ok (), { found with files := deployed.2 },
          memory.insert accessor.name ⟨resource.origin, Literal.stringExpression url⟩) := by
  intro deployed
  have hdeploy : found.deploy context resource.fileName (accessor.mimeTypeOf resource) resource.bytes
      (!accessor.embed) = (deployed.1.map Literal.stringExpression, { found with files := deployed.2 }) := rfl
  simp only [Generator.data, h]
  rw [← Accessor.mimeTypeOf, hdeploy]
  cases deployed.1 <;> rfl

theorem refusesSize_iff {context : Context} {accessor : Accessor} {session : Session}
    {memory : OrderedMap String DeployedData} {resource : Resource}
    (h : Handling.Found context ⟨⟨⟨id, .data⟩, memory, served⟩, accessor, session⟩ resource) :
    Handling.RefusesSize context ⟨⟨⟨id, .data⟩, memory, served⟩, accessor, session⟩ ↔
      (accessor.embed = false ∨ 65536 ≤ resource.bytes.length) ∧ context.deployment = .inline := by
  rcases hresolve : session.resolve context accessor (accessor.effectiveLocale context.locale) with
    ⟨result, found⟩
  obtain rfl : result = .ok resource := (congrArg Prod.fst hresolve).symm.trans h
  rw [← Deployment.url_inlineLimit_iff]
  have hprepare := preparation_data memory hresolve
  have hresult := congrArg Prod.fst hprepare
  unfold Handling.RefusesSize Handling.result
  dsimp only at hresult ⊢
  rw [hresult]
  cases (context.deployment.url found.files resource.fileName (accessor.mimeTypeOf resource)
    resource.bytes (!accessor.embed)).1 <;> simp

/-- The resource of an accessor, with its URL. -/
structure Located (context : Context) (handling : Handling) (resource : Resource) (url : String) : Prop where
  found : handling.Found context resource
  addresses : context.deployment.Addresses resource.fileName (handling.accessor.mimeTypeOf resource)
    resource.bytes handling.accessor.embed url

/-- An accessor that could be prepared is remembered with the URL of its resource. -/
theorem located_of_prepared {context : Context} {accessor : Accessor} {session : Session}
    {memory : OrderedMap String DeployedData}
    (h : Handling.result context ⟨⟨⟨id, .data⟩, memory, served⟩, accessor, session⟩ = .ok ()) :
    ∃ resource url,
      Located context ⟨⟨⟨id, .data⟩, memory, served⟩, accessor, session⟩ resource url ∧
      (Generator.data.prepare accessor (accessor.effectiveLocale context.locale) context session
        memory).2.2 =
          memory.insert accessor.name ⟨resource.origin, Literal.stringExpression url⟩ := by
  unfold Handling.result at h
  dsimp only at h
  rcases hresolve : session.resolve context accessor (accessor.effectiveLocale context.locale) with
    ⟨result, found⟩
  cases result with
  | error error => simp [Generator.data, hresolve] at h
  | ok resource =>
    have hprepare := preparation_data memory hresolve
    rw [hprepare] at h ⊢
    cases hurl : (context.deployment.url found.files resource.fileName
        (accessor.mimeTypeOf resource) resource.bytes (!accessor.embed)).1 with
    | error error => simp [hurl] at h
    | ok url =>
      exact ⟨resource, url,
        ⟨congrArg Prod.fst hresolve, Deployment.addresses_of_url hurl⟩, rfl⟩

theorem get?_prepare_data {other : Accessor} {name : String} (hne : other.name ≠ name)
    (locale : Option String) (context : Context) (session : Session)
    (memory : OrderedMap String DeployedData) :
    (Generator.data.prepare other locale context session memory).2.2.get? name = memory.get? name := by
  rcases hresolve : session.resolve context other locale with ⟨result, found⟩
  cases result with
  | error error => simp only [Generator.data, hresolve]
  | ok resource =>
    have hmemory := congrArg (·.2.2.get? name) (preparation_data memory hresolve)
    refine hmemory.trans ?_
    cases (context.deployment.url found.files resource.fileName (other.mimeTypeOf resource)
      resource.bytes (!other.embed)).1 with
    | error error => rfl
    | ok url => exact OrderedMap.get?_insert_of_ne _ _ hne.symm

/-! ### Answering for data -/

/-- The expression for a data accessor, in terms of the expression for its URL. -/
def dataCall (name url : String) : String :=
  "::bundle_runtime::DataResourcePrototype::new(" ++ Literal.literal name ++ ", " ++ url ++ ")"

def sayData (context : Context) (memory : OrderedMap String DeployedData) (accessor : Accessor)
    (_ : Option String) : Except ResourceError String :=
  match memory.get? accessor.name with
  | none => .error (Generator.notPrepared accessor)
  | some deployed =>
    .ok (context.originComment deployed.origin ++ dataCall accessor.name deployed.urlExpression)

theorem append_dataCall (comment name url : String) :
    comment ++ "::bundle_runtime::DataResourcePrototype::new(" ++ Literal.literal name ++ ", " ++ url ++
      ")" = comment ++ dataCall name url := by
  unfold dataCall
  simp only [String.append_assoc]

theorem recites_data : Recites Generator.data sayData := by
  intro accessor locale context session (memory : OrderedMap String DeployedData)
  unfold sayData
  cases hget : memory.get? accessor.name with
  | none => simp only [Generator.data, hget]
  | some deployed => simp only [Generator.data, hget, append_dataCall]

/-! ### Data of a pass -/

variable {plan : Plan} {bundle : Bundle} {locale : Option String} {σ : Type} {world : World σ}
  {accessor : Accessor}

/-- The answer for a data accessor that could be prepared denotes the URL of its resource. -/
structure AnswersUrl (plan : Plan) (bundle : Bundle) (locale : Option String) (world : World σ)
    (id : GeneratorId) (accessor : Accessor) (resource : Resource) (url expression : String) : Prop where
  denotes : Denotes expression url
  answered : ⟨⟨id, .data⟩, accessor, .ok ((plan.context bundle locale).originComment resource.origin ++
    dataCall accessor.name expression)⟩ ∈
      answersOf plan bundle locale (opening world) (tasksOf plan bundle)

/-- In every pass a data accessor is prepared in a call that refuses its resource for the size exactly if the
payload may not be part of the URL and there is no directory for it; and if the call succeeds, the accessor is
answered with an expression for the URL of the resource. -/
theorem answersUrl_of_prepared
    (honly : bundle.accessors.filter (·.name = accessor.name) = [accessor])
    (htask : ⟨⟨id, .data⟩, served⟩ ∈ tasksOf plan bundle) (hserved : accessor ∈ served) :
    ∃ handling ∈ handlingAll (plan.context bundle locale) (opening world) (tasksOf plan bundle),
      handling.accessor = accessor ∧ handling.running.kind = ⟨id, .data⟩ ∧
      (∀ resource, handling.Found (plan.context bundle locale) resource →
        (handling.RefusesSize (plan.context bundle locale) ↔
          (accessor.embed = false ∨ 65536 ≤ resource.bytes.length) ∧ plan.deployment = .inline)) ∧
      (handling.result (plan.context bundle locale) = .ok () → ∃ resource url expression,
        Located (plan.context bundle locale) handling resource url ∧
        AnswersUrl plan bundle locale world id accessor resource url expression) := by
  have hfilter : served.filter (·.name = accessor.name) = [accessor] :=
    filter_served honly htask hserved
  let context := plan.context bundle locale
  obtain ⟨before, -, hstart⟩ := exists_start context (opening world) htask
  obtain ⟨hrunning, hhandlings, -⟩ := hstart rfl
  obtain ⟨session, memory, last, hlast, hprepares⟩ := exists_prepares context served hfilter
    (starting context ⟨id, .data⟩ before).2.1 (starting context ⟨id, .data⟩ before).2.2
  refine ⟨⟨⟨⟨id, .data⟩, memory, served⟩, accessor, session⟩, hhandlings hprepares.handled, rfl, rfl,
    fun resource hfound => refusesSize_iff hfound, fun hresult => ?_⟩
  obtain ⟨resource, url, hlocated, hmemory⟩ := located_of_prepared hresult
  have hget : OrderedMap.get? (ν := DeployedData) last accessor.name =
      some ⟨resource.origin, Literal.stringExpression url⟩ := by
    apply hprepares.keeps fun memory : OrderedMap String DeployedData =>
      memory.get? accessor.name = some ⟨resource.origin, Literal.stringExpression url⟩
    · intro other session' memory' _ hname hmem
      exact (get?_prepare_data hname _ _ _ _).trans hmem
    · refine (congrArg (OrderedMap.get? · accessor.name) hmemory).trans ?_
      exact OrderedMap.get?_insert_self _ _ _
  rw [hlast] at hrunning
  have hanswer := recited_mem_answersOf (fun _ _ _ _ => rfl) recites_data hserved hrunning
  refine ⟨resource, url, _, hlocated, denotes_stringExpression url, ?_⟩
  have hsaid : recited context sayData last accessor = ⟨⟨id, .data⟩, accessor,
      .ok (context.originComment resource.origin ++
        dataCall accessor.name (Literal.stringExpression url))⟩ := by
    unfold recited sayData
    rw [hget]
  exact hsaid ▸ hanswer

/-- A payload whose declared MIME type has quotes in it, and the same payload as a file. -/
def quoted : Accessor :=
  { name := "quoted", kind := .dataResource, source := some ["zeros.bin"],
    mimeType := some "text/x-\"q\"" }

def blobs : Bundle where
  name := ⟨"crate::Blobs"⟩
  accessors := [quoted, { quoted with name := "linked", embed := false }]

def blobsPlan : Plan :=
  { hierarchy := .builtin, bundles := .empty, deployment := .external ⟨"/public"⟩ "/assets/" }

def blobsWorld : World MemorySink where
  files := .empty
  finder := ({} : Finder).embed "zeros.bin" [0, 0, 0, 0]
  sink := {}

theorem answersUrl_blobs :
    ∃ handling ∈ handlingAll (blobsPlan.context blobs none) (opening blobsWorld) (tasksOf blobsPlan blobs),
      handling.accessor = quoted ∧ handling.result (blobsPlan.context blobs none) = .ok () ∧
      ∃ resource url expression,
        Located (blobsPlan.context blobs none) handling resource url ∧
        AnswersUrl blobsPlan blobs none blobsWorld ⟨"data"⟩ quoted resource url expression := by
  have htask : ⟨⟨⟨"data"⟩, .data⟩, blobs.accessors⟩ ∈ tasksOf blobsPlan blobs := List.mem_cons_self
  have hprepared : ∀ handling ∈ handlingAll (blobsPlan.context blobs none) (opening blobsWorld)
      (tasksOf blobsPlan blobs),
      handling.result (blobsPlan.context blobs none) = .ok () := by decide +kernel
  obtain ⟨handling, hmem, haccessor, -, -, hanswers⟩ :=
    @answersUrl_of_prepared _ _ _ _ none _ blobsWorld _ (by decide +kernel) htask List.mem_cons_self
  exact ⟨handling, hmem, haccessor, hprepared handling hmem, hanswers (hprepared handling hmem)⟩

end Pass

end BundleForge
