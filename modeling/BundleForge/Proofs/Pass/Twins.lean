import BundleForge.Proofs.Pass.Expressions
import BundleForge.Proofs.Pass.Images
import BundleForge.Proofs.Pass.Nested
/-!
# Two passes side by side

Two passes for versions of one bundle that ask for the same values go through the same phases for the same
accessors, whatever resources they find and wherever they deploy them. After each phase what their generators
remember is the same up to texts: a text or a URL may be another one, but it is a text or a URL in both passes, and
fields are defined under the same names. So what the two passes put together differs in texts only.
-/

namespace BundleForge

open Lexical
open Generator (PreparedText DeployedData DeployedImage ImageTable ImageMemory ImageUse)

/-- Plans with the same types and generators, which may deploy resources in different ways and tell their origins or
not. Of the declared bundles only the names matter. -/
structure Plan.Alike (plan other : Plan) : Prop where
  hierarchy : plan.hierarchy = other.hierarchy
  registry : plan.registry = other.registry
  bundles : ∀ ty, Option.Rel (fun bundle bundle' => bundle.name = bundle'.name ∧ bundle.enclosing = bundle'.enclosing)
    (plan.bundles.get? ty) (other.bundles.get? ty)

/-- Versions of a bundle that ask for the same values, perhaps in other places, with other MIME types, and, unless
for images, with other decisions on embedding. -/
structure Bundle.Alike (plan : Plan) (bundle other : Bundle) : Prop where
  name : bundle.name = other.name
  enclosing : bundle.enclosing = other.enclosing
  accessors : List.Forall₂ (fun accessor accessor' => accessor.Alike accessor' ∧
    (Dispatch.idFor plan.registry plan.hierarchy accessor = some GeneratorKind.image.id →
      accessor.embed = accessor'.embed)) bundle.accessors other.accessors

structure Bundle.Named (bundle : Bundle) : Prop where
  name : IsPath bundle.name.path.toList
  enclosing : ∀ name ∈ bundle.enclosing, IsPath name.toList

/-- The names that a pass may write into its module consist of the characters of identifiers and paths. -/
structure Plan.Named (plan : Plan) (bundle : Bundle) (locale : Option String) : Prop where
  bundle_named : bundle.Named
  locale_path : ∀ text ∈ locale, IsPath text.toList
  accessor_named : ∀ accessor ∈ bundle.accessors, accessor.Named
  nested_named : ∀ ty nested, plan.bundles.get? ty = some nested → IsPath ty.path.toList ∧ nested.Named

/-! ### Tasks -/

/-- Accessors that a generator serves in two passes. -/
structure Accessor.Matches (id : GeneratorId) (accessor other : Accessor) : Prop where
  alike : accessor.Alike other
  embed : id = GeneratorKind.image.id → accessor.embed = other.embed
  named : accessor.Named

structure TwinTask (task other : Task) : Prop where
  kind : task.kind = other.kind
  accessors : List.Forall₂ (Accessor.Matches task.kind.id) task.accessors other.accessors

namespace Pass

theorem twin_addTo {kind : GeneratorKind} {accessor accessor' : Accessor}
    (haccessor : accessor.Matches kind.id accessor') {tasks tasks' : List Task}
    (h : List.Forall₂ TwinTask tasks tasks') :
    List.Forall₂ TwinTask (Dispatch.addTo kind accessor tasks) (Dispatch.addTo kind accessor' tasks') := by
  induction h with
  | nil => exact .cons ⟨rfl, .cons haccessor .nil⟩ .nil
  | @cons task task' rest rest' htask hrest ih =>
    rw [Dispatch.addTo, Dispatch.addTo, ← htask.kind]
    split
    · rename_i hid
      rw [← hid] at haccessor
      exact .cons ⟨rfl, List.rel_append htask.accessors (.cons haccessor .nil)⟩ hrest
    · exact .cons htask ih

variable {plan other : Plan} {bundle bundle' : Bundle} {locale : Option String}

theorem twin_add {dispatch dispatch' : Dispatch} (h : List.Forall₂ TwinTask dispatch.tasks dispatch'.tasks)
    {accessor accessor' : Accessor} (halike : accessor.Alike accessor')
    (hembed : Dispatch.idFor plan.registry plan.hierarchy accessor = some GeneratorKind.image.id →
      accessor.embed = accessor'.embed) (hnamed : accessor.Named) :
    List.Forall₂ TwinTask (Dispatch.add plan.registry plan.hierarchy dispatch accessor).tasks
      (Dispatch.add plan.registry plan.hierarchy dispatch' accessor').tasks := by
  unfold Dispatch.add
  rw [← halike.kind]
  cases hkind : plan.registry.resolve plan.hierarchy accessor.kind with
  | error error => exact h
  | ok kind =>
    have hid : Dispatch.idFor plan.registry plan.hierarchy accessor = some kind.id :=
      Dispatch.idFor_eq_some_iff.2 ⟨kind, hkind, rfl⟩
    exact twin_addTo ⟨halike, fun himage => hembed (himage ▸ hid), hnamed⟩ h

theorem twin_tasksOf (hplan : plan.Alike other) (hbundle : bundle.Alike plan bundle')
    (hnamed : ∀ accessor ∈ bundle.accessors, accessor.Named) :
    List.Forall₂ TwinTask (tasksOf plan bundle) (tasksOf other bundle') := by
  have hfold : ∀ {accessors accessors' : List Accessor}, List.Forall₂ (fun accessor accessor' =>
      accessor.Named ∧ accessor.Alike accessor' ∧
        (Dispatch.idFor plan.registry plan.hierarchy accessor = some GeneratorKind.image.id →
          accessor.embed = accessor'.embed)) accessors accessors' →
      ∀ dispatch dispatch' : Dispatch, List.Forall₂ TwinTask dispatch.tasks dispatch'.tasks →
        List.Forall₂ TwinTask (accessors.foldl (Dispatch.add plan.registry plan.hierarchy) dispatch).tasks
          (accessors'.foldl (Dispatch.add plan.registry plan.hierarchy) dispatch').tasks := by
    intro accessors accessors' haccessors
    induction haccessors with
    | nil => exact fun _ _ h => h
    | cons haccessor _ ih =>
      intro dispatch dispatch' h
      exact ih _ _ (twin_add h haccessor.2.1 haccessor.2.2 haccessor.1)
  unfold tasksOf
  rw [← hplan.registry, ← hplan.hierarchy]
  exact hfold ((List.forall₂_and_left _ _).2 ⟨hnamed, hbundle.accessors⟩) ⟨[], []⟩ ⟨[], []⟩ .nil

/-! ### Memories -/

/-- An image that has been deployed, with its field. -/
inductive TwinImage : DeployedImage → DeployedImage → Prop
  | texts {field : Option String} (field_path : ∀ ident ∈ field, IsPath ident.toList) (text other : String) :
      TwinImage ⟨Literal.stringExpression text, field⟩ ⟨Literal.stringExpression other, field⟩

/-- Image generators that have noted the same images for the same uses. -/
def TwinTables (memory memory' : ImageMemory) : Prop :=
  ∃ images images' uses, memory = .only ⟨images, uses⟩ ∧ memory' = .only ⟨images', uses⟩ ∧
    OrderedMap.Alike TwinImage images images'

/-- Every URL is remembered as an expression that spells it. -/
def Spelling (memory : OrderedMap String DeployedData) : Prop :=
  ∀ name deployed, memory.get? name = some deployed →
    ∃ url, deployed.urlExpression = Literal.stringExpression url

/-- Generators at work in two passes. -/
inductive TwinRunning : Running → Running → Prop
  | text {served served' : List Accessor}
      (accessors : List.Forall₂ (Accessor.Matches GeneratorKind.text.id) served served')
      (memory memory' : OrderedMap String PreparedText) :
      TwinRunning ⟨.text, memory, served⟩ ⟨.text, memory', served'⟩
  | data {served served' : List Accessor}
      (accessors : List.Forall₂ (Accessor.Matches GeneratorKind.data.id) served served')
      {memory memory' : OrderedMap String DeployedData} (spelling : Spelling memory)
      (spelling' : Spelling memory') : TwinRunning ⟨.data, memory, served⟩ ⟨.data, memory', served'⟩
  | image {served served' : List Accessor}
      (accessors : List.Forall₂ (Accessor.Matches GeneratorKind.image.id) served served')
      {memory memory' : ImageMemory} (tables : TwinTables memory memory') :
      TwinRunning ⟨.image, memory, served⟩ ⟨.image, memory', served'⟩
  | bundle {served served' : List Accessor}
      (accessors : List.Forall₂ (Accessor.Matches GeneratorKind.bundle.id) served served') :
      TwinRunning ⟨.bundle, (), served⟩ ⟨.bundle, (), served'⟩

/-! ### Preparing -/

variable {context context' : Context}

/-- A fact about the memory of a generator that holds when it is started and is kept by every call holds when all
accessors of its task are prepared. -/
theorem exists_memory_prepareTask {kind : GeneratorKind} {P : kind.generator.Memory → Prop} {session : Session}
    (hok : (starting context kind session).1 = .ok ()) (hfirst : P (starting context kind session).2.2)
    (hkeeps : ∀ accessor session memory, P memory →
      P (preparation context kind accessor session memory).2.2) (served : List Accessor) :
    ∃ last, (prepareTask context session ⟨kind, served⟩).2.1 = ⟨kind, last, served⟩ ∧ P last := by
  obtain ⟨last, hlast, hP⟩ := exists_memory_prepareEach context served _ _ served
    (fun accessor session memory _ => hkeeps accessor session memory) hfirst
  rw [(prepareTask_of_ok context served hok).1]
  exact ⟨last, hlast, hP⟩

theorem exists_running_prepareTask {kind : GeneratorKind} {session : Session}
    (hok : (starting context kind session).1 = .ok ()) (served : List Accessor) :
    ∃ last, (prepareTask context session ⟨kind, served⟩).2.1 = ⟨kind, last, served⟩ := by
  obtain ⟨last, hlast, -⟩ := exists_memory_prepareTask (P := fun _ => True) hok trivial (fun _ _ _ _ => trivial) served
  exact ⟨last, hlast⟩

theorem spelling_preparation (accessor : Accessor) (session : Session) (memory : OrderedMap String DeployedData)
    (h : Spelling memory) :
    Spelling (preparation context .data accessor session memory).2.2 := by
  have hown : preparation context .data accessor session memory = Generator.data.prepare accessor
    (accessor.effectiveLocale context.locale) context session
      memory := rfl
  rcases hresolve : session.resolve context accessor
    (accessor.effectiveLocale context.locale) with ⟨result, found⟩
  cases result with
  | error error =>
    rw [hown]
    simpa only [Generator.data, hresolve] using h
  | ok resource =>
    rw [hown, preparation_data memory hresolve]
    split
    · exact h
    · rename_i url hurl
      intro name deployed hget
      have hinsert := OrderedMap.get?_insert memory accessor.name
        (⟨resource.origin, Literal.stringExpression url⟩ : DeployedData) name
      rw [hinsert] at hget
      split at hget
      · rw [← Option.some.inj hget]
        exact ⟨url, rfl⟩
      · exact h name deployed hget

/-- Where both passes prepare an image they find the same one. -/
def SameImages (context context' : Context) (handlings handlings' : List Handling) : Prop :=
  ∀ pair ∈ handlings.zip handlings', pair.1.running.kind = .image → ∀ resource resource',
    pair.1.Found context resource →
    pair.2.Found context' resource' → resource = resource'

theorem SameImages.append {first first' handlings handlings' : List Handling}
    (h : SameImages context context' (first ++ handlings) (first' ++ handlings'))
    (hlength : first.length = first'.length) :
    SameImages context context' first first' ∧ SameImages context context' handlings handlings' := by
  unfold SameImages at h
  rw [List.zip_append hlength, List.forall_mem_append] at h
  exact h

theorem twin_gains {images images' later later' : OrderedMap String DeployedImage} {key : String}
    {addressed addressed' : String → Prop} (h : OrderedMap.Alike TwinImage images images')
    (hgains : Generator.Gains images key addressed later)
    (hgains' : Generator.Gains images' key addressed' later') : OrderedMap.Alike TwinImage later later' := by
  have hcontains := h.contains key
  cases hgains with
  | known old =>
    cases hgains' with
    | known old' => exact h
    | new old' addresses' => exact absurd (old.symm.trans (hcontains.trans old')) (by decide)
  | new old addresses =>
    cases hgains' with
    | known old' => exact absurd (old'.symm.trans (hcontains.symm.trans old)) (by decide)
    | new old' addresses' => exact h.insert key (.texts (fun _ hident => absurd hident (by simp)) _ _)

theorem twin_use {accessor accessor' : Accessor} (h : accessor.Matches GeneratorKind.image.id accessor')
    (resource : Resource) (header : Image.Header) :
    ImageUse.of accessor resource header = ImageUse.of accessor' resource header := by
  rw [ImageUse.of, ImageUse.of, h.alike.width, h.alike.height, h.embed rfl]

theorem exists_prepared_image {accessor : Accessor} {session : Session} {memory : GeneratorKind.image.generator.Memory}
    {images : OrderedMap String DeployedImage} {uses : OrderedMap String ImageUse}
    (hmemory : memory = ImageMemory.only ⟨images, uses⟩) (served : List Accessor)
    (hok : Running.error? (preparation context .image accessor session memory).1 = none) :
    ∃ resource header later,
      Handling.Found context ⟨⟨.image, memory, served⟩, accessor, session⟩ resource ∧
      Image.sniff? resource.bytes = some header ∧
      Generator.Gains images (Generator.imageKey resource.origin accessor.embed)
        (context.deployment.Addresses resource.fileName header.format.mimeType
          resource.bytes accessor.embed) later ∧
      (preparation context .image accessor session memory).2.2 =
        ImageMemory.only ⟨later, uses.insert accessor.name (.of accessor resource header)⟩ := by
  subst hmemory
  have hown : preparation context .image accessor session (ImageMemory.only ⟨images, uses⟩) =
    Generator.image.prepare accessor (accessor.effectiveLocale context.locale)
      context session (.only ⟨images, uses⟩) := rfl
  rcases Generator.prepare_image accessor (accessor.effectiveLocale context.locale)
    context session ⟨images, uses⟩ with
    ⟨next, resource, header, later, hfound, hheader, hgains, hprepare⟩ | ⟨next, error, hprepare⟩
  · exact ⟨resource, header, later, hfound, hheader, hgains, by rw [hown, hprepare]⟩
  · rw [hown, hprepare] at hok
    exact absurd hok (by simp [Running.error?])

/-- Images that are prepared in both passes are noted under the same keys and for the same use. -/
theorem twin_prepareEach_image {accessors accessors' : List Accessor} (served served' : List Accessor)
    (h : List.Forall₂ (Accessor.Matches GeneratorKind.image.id) accessors accessors')
    {session session' : Session} {memory memory' : GeneratorKind.image.generator.Memory}
    (htables : TwinTables memory memory')
    (hclean : Clean (prepareEach context session ⟨.image, memory, served⟩ accessors).2.2)
    (hclean' : Clean (prepareEach context' session' ⟨.image, memory', served'⟩ accessors').2.2)
    (hsame : SameImages context context'
      (handlingEach context session ⟨.image, memory, served⟩ accessors)
      (handlingEach context' session' ⟨.image, memory', served'⟩ accessors')) :
    ∃ last last',
      (prepareEach context session ⟨.image, memory, served⟩ accessors).2.1 = ⟨.image, last, served⟩ ∧
      (prepareEach context' session' ⟨.image, memory', served'⟩ accessors').2.1 = ⟨.image, last', served'⟩ ∧
      TwinTables last last' := by
  induction h generalizing session session' memory memory' with
  | nil => exact ⟨memory, memory', rfl, rfl, htables⟩
  | @cons accessor accessor' rest rest' haccessor _ ih =>
    rw [prepareEach_cons] at hclean hclean'
    rw [prepareEach_cons, prepareEach_cons]
    rw [handlingEach_cons, handlingEach_cons] at hsame
    obtain ⟨hok, hclean⟩ := List.forall_mem_cons.1 hclean
    obtain ⟨hok', hclean'⟩ := List.forall_mem_cons.1 hclean'
    obtain ⟨hhere, hthere⟩ := @SameImages.append _ _ [_] [_] _ _ hsame rfl
    refine ih ?_ hclean hclean' hthere
    obtain ⟨images, images', uses, hfirst, hsecond, halike⟩ := htables
    obtain ⟨resource, header, later, hfound, hheader, hgains, hnext⟩ := exists_prepared_image hfirst served hok
    obtain ⟨resource', header', later', hfound', hheader', hgains', hnext'⟩ :=
      exists_prepared_image hsecond served' hok'
    obtain rfl : resource = resource' := hhere _ List.mem_cons_self rfl _ _ hfound hfound'
    obtain rfl := Option.some.inj (hheader.symm.trans hheader')
    rw [← haccessor.embed rfl] at hgains'
    rw [← haccessor.alike.name, ← twin_use haccessor] at hnext'
    exact ⟨later, later', _, hnext, hnext', twin_gains halike hgains hgains'⟩

/-- All generators that there are can be started. -/
theorem starting_ok {kind : GeneratorKind} (hkind : kind ∈ GeneratorKind.builtIn) (context : Context)
    (session : Session) : (starting context kind session).1 = .ok () := by
  simp only [GeneratorKind.builtIn, List.mem_cons, List.not_mem_nil, or_false] at hkind
  rcases hkind with rfl | rfl | rfl | rfl
  · rfl
  · rfl
  · rfl
  · rfl

theorem twin_prepareTask_image {served served' : List Accessor}
    (haccessors : List.Forall₂ (Accessor.Matches GeneratorKind.image.id) served served') {session session' : Session}
    (hclean : Clean (prepareTask context session ⟨.image, served⟩).2.2)
    (hclean' : Clean (prepareTask context' session' ⟨.image, served'⟩).2.2)
    (hsame : SameImages context context' (handlingTask context session ⟨.image, served⟩)
      (handlingTask context' session' ⟨.image, served'⟩)) :
    TwinRunning (prepareTask context session ⟨.image, served⟩).2.1
      (prepareTask context' session' ⟨.image, served'⟩).2.1 := by
  have hok : (starting context .image session).1 = .ok () := (starting_image context _ session).1
  have hok' : (starting context' .image session').1 = .ok () := (starting_image context' _ session').1
  obtain ⟨hprepare, hhandling⟩ := prepareTask_of_ok context served hok
  obtain ⟨hprepare', hhandling'⟩ := prepareTask_of_ok context' served' hok'
  rw [hprepare] at hclean ⊢
  rw [hprepare'] at hclean' ⊢
  rw [hhandling, hhandling'] at hsame
  have hfirst : TwinTables (starting context .image session).2.2 (starting context' .image session').2.2 :=
    ⟨.empty, .empty, .empty, (starting_image context _ session).2, (starting_image context' _ session').2,
      OrderedMap.alike_empty⟩
  obtain ⟨last, last', hlast, hlast', htables⟩ := twin_prepareEach_image served served' haccessors hfirst
    (List.forall_mem_cons.1 hclean).2 (List.forall_mem_cons.1 hclean').2 hsame
  dsimp only
  rw [hlast, hlast']
  exact .image haccessors htables

theorem twin_prepareTask {task task' : Task} (htask : TwinTask task task')
    (hkind : task.kind ∈ GeneratorKind.builtIn) {session session' : Session}
    (hclean : Clean (prepareTask context session task).2.2)
    (hclean' : Clean (prepareTask context' session' task').2.2)
    (hsame : SameImages context context' (handlingTask context session task)
      (handlingTask context' session' task')) :
    TwinRunning (prepareTask context session task).2.1 (prepareTask context' session' task').2.1 := by
  obtain ⟨kind, served⟩ := task
  obtain ⟨kind', served'⟩ := task'
  obtain ⟨rfl, haccessors⟩ := htask
  dsimp only at hkind haccessors
  have hok := starting_ok hkind context session
  have hok' := starting_ok hkind context' session'
  simp only [GeneratorKind.builtIn, List.mem_cons, List.not_mem_nil, or_false] at hkind
  rcases hkind with rfl | rfl | rfl | rfl
  · obtain ⟨last, hlast⟩ := exists_running_prepareTask hok served
    obtain ⟨last', hlast'⟩ := exists_running_prepareTask hok' served'
    rw [hlast, hlast']
    exact .text haccessors last last'
  · have hempty : Spelling .empty := fun name deployed hget => by simp at hget
    obtain ⟨last, hlast, hspelling⟩ := @exists_memory_prepareTask context .data Spelling session hok
      hempty spelling_preparation served
    obtain ⟨last', hlast', hspelling'⟩ := @exists_memory_prepareTask context' .data Spelling session' hok'
      hempty spelling_preparation served'
    rw [hlast, hlast']
    exact .data haccessors hspelling hspelling'
  · exact twin_prepareTask_image haccessors hclean hclean' hsame
  · obtain ⟨last, hlast⟩ := exists_running_prepareTask hok served
    obtain ⟨last', hlast'⟩ := exists_running_prepareTask hok' served'
    rw [hlast, hlast']
    exact .bundle haccessors

theorem length_handlingEach (session : Session) (running : Running) (accessors : List Accessor) :
    (handlingEach context session running accessors).length = accessors.length := by
  induction accessors generalizing session running with
  | nil => rfl
  | cons accessor rest ih =>
    rw [handlingEach, List.length_cons, List.length_cons]
    exact congrArg (· + 1) (ih _ _)

theorem length_handlingTask {task : Task} (hkind : task.kind ∈ GeneratorKind.builtIn) (session : Session) :
    (handlingTask context session task).length = task.accessors.length := by
  obtain ⟨kind, served⟩ := task
  rw [(prepareTask_of_ok context served (starting_ok hkind context session)).2]
  exact length_handlingEach _ _ _

/-- When all accessors are prepared the generators of both passes remember the same up to texts. -/
theorem twin_prepareAll {tasks tasks' : List Task}
    (htasks : List.Forall₂ TwinTask tasks tasks') (hkinds : ∀ task ∈ tasks, task.kind ∈ GeneratorKind.builtIn)
    {session session' : Session} (hclean : Clean (prepareAll context session tasks).2.2)
    (hclean' : Clean (prepareAll context' session' tasks').2.2)
    (hsame : SameImages context context' (handlingAll context session tasks)
      (handlingAll context' session' tasks')) :
    List.Forall₂ TwinRunning (prepareAll context session tasks).2.1
      (prepareAll context' session' tasks').2.1 := by
  induction htasks generalizing session session' with
  | nil => exact .nil
  | @cons task task' rest rest' htask _ ih =>
    rw [List.forall_mem_cons] at hkinds
    have hkind' : task'.kind ∈ GeneratorKind.builtIn := htask.kind ▸ hkinds.1
    have hlength : (handlingTask context session task).length =
        (handlingTask context' session' task').length := by
      rw [length_handlingTask hkinds.1, length_handlingTask hkind']
      exact htask.accessors.length_eq
    rw [handlingAll, handlingAll] at hsame
    obtain ⟨hhere, hthere⟩ := hsame.append hlength
    obtain ⟨hfirst, hrest⟩ := List.forall_mem_append.1 hclean
    obtain ⟨hfirst', hrest'⟩ := List.forall_mem_append.1 hclean'
    exact .cons (twin_prepareTask htask hkinds.1 hfirst hfirst' hhere)
      (ih hkinds.2 hrest hrest' hthere)

end Pass

end BundleForge
