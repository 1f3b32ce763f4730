import BundleForge.Proofs.Pass.Images
/-!
# What image accessors share

An image generator tells images apart by where they come from and by the decision on embedding. It deploys an image for
the first accessor that comes with a new key and defines one static for it, and that static is named in the expressions
of all the accessors with the key. Images with the same bytes from different places have different keys: they are
deployed once for each place, and have a static for each.
-/

namespace BundleForge

open Generator (ImageMemory ImageTable ImageUse DeployedImage imageKey imageStatic imageExpression)

namespace Handling

variable {served : List Accessor} {accessor : Accessor} {session : Session} {resource : Resource}

/-- An image generator deploys an image if there is none under its key. -/
theorem deploys_image_iff {table : ImageTable} {header : Image.Header}
    (hheader : Image.sniff? resource.bytes = some header) :
    Deploys ⟨⟨.image, ImageMemory.only table, served⟩, accessor, session⟩ resource ↔
      table.images.contains (Generator.imageKey resource.origin accessor.embed) = false := by
  rw [deploys_iff_of_image]
  constructor
  · rintro ⟨_, table', -, hinUse, hnew⟩
    obtain rfl := Except.ok.inj hinUse
    exact hnew
  · exact fun hnew => ⟨header, table, hheader, Generator.table?_only table, hnew⟩

end Handling

namespace Pass

def sharedKey (resource : Accessor → Resource) (accessor : Accessor) : String :=
  imageKey (resource accessor).origin accessor.embed

def keysOf (resource : Accessor → Resource) (calls : List Handling) : List String :=
  calls.map fun handling => sharedKey resource handling.accessor

/-- Some of the calls deploy what was found in them, one for each key. -/
structure DeploysOnce (context : Context) (resource : Accessor → Resource) (url : String → String)
    (calls deploying : List Handling) : Prop where
  sublist : deploying.Sublist calls
  mem_iff : ∀ handling ∈ calls, handling ∈ deploying ↔ handling.Deploys (resource handling.accessor)
  keys : keysOf resource deploying = (keysOf resource calls).eraseDups
  pictured : ∀ handling ∈ deploying, ∃ header,
    Pictured context handling (resource handling.accessor) header (url (sharedKey resource handling.accessor))

/-- The table of an image generator after some calls. -/
structure Tabled (resource : Accessor → Resource) (url : String → String) (calls : List Handling)
    (table : ImageTable) : Prop where
  keys : table.images.keys = (keysOf resource calls).eraseDups
  images : ∀ key image, table.images.get? key = some image →
    image = ⟨Literal.stringExpression (url key), none⟩
  uses : ∀ handling ∈ calls, ∃ header, Image.sniff? (resource handling.accessor).bytes = some header ∧
    table.uses.get? handling.accessor.name =
      some (.of handling.accessor (resource handling.accessor) header)

variable {context : Context} {served : List Accessor} {resource : Accessor → Resource}
  {url : String → String} {calls deploying : List Handling} {table : ImageTable}

theorem tabled_empty : Tabled resource url [] .empty where
  keys := rfl
  images key image hget := by simp [ImageTable.empty] at hget
  uses handling hmem := absurd hmem List.not_mem_nil

theorem Tabled.contains_iff (h : Tabled resource url calls table) {key : String} :
    table.images.contains key = true ↔ key ∈ keysOf resource calls := by
  rw [OrderedMap.contains_iff, h.keys, List.mem_eraseDups]

theorem keysOf_concat (handling : Handling) :
    keysOf resource (calls ++ [handling]) = keysOf resource calls ++ [sharedKey resource handling.accessor] :=
  List.map_append

/-! ### Preparing -/

section

variable {context : Context} {handling : Handling}

theorem DeploysOnce.known (h : DeploysOnce context resource url calls deploying) (hnew : handling ∉ calls)
    (hkey : sharedKey resource handling.accessor ∈ keysOf resource calls)
    (hdeploys : ¬ handling.Deploys (resource handling.accessor)) :
    DeploysOnce context resource url (calls ++ [handling]) deploying where
  sublist := h.sublist.trans (List.sublist_append_left _ _)
  mem_iff other hother := by
    rcases List.mem_append.1 hother with hold | hlast
    · exact h.mem_iff other hold
    · obtain rfl := List.mem_singleton.1 hlast
      exact iff_of_false (fun hmem => hnew (h.sublist.subset hmem)) hdeploys
  keys := by rw [h.keys, keysOf_concat, eraseDups_concat, if_pos hkey]
  pictured := h.pictured

/-- A call that deploys what has a new key. -/
theorem DeploysOnce.fresh (h : DeploysOnce context resource url calls deploying) (hnew : handling ∉ calls)
    (hkey : sharedKey resource handling.accessor ∉ keysOf resource calls)
    (hdeploys : handling.Deploys (resource handling.accessor)) {header : Image.Header} {address : String}
    (hpictured : Pictured context handling (resource handling.accessor) header address) :
    DeploysOnce context resource (Function.update url (sharedKey resource handling.accessor) address)
      (calls ++ [handling]) (deploying ++ [handling]) where
  sublist := h.sublist.append_right _
  mem_iff other hother := by
    rw [List.mem_append, List.mem_singleton]
    rcases List.mem_append.1 hother with hold | hlast
    · have hne : other ≠ handling := fun heq => hnew (heq ▸ hold)
      rw [or_iff_left hne, h.mem_iff other hold]
    · obtain rfl := List.mem_singleton.1 hlast
      exact iff_of_true (.inr rfl) hdeploys
  keys := by rw [keysOf_concat, keysOf_concat, eraseDups_concat, if_neg hkey, h.keys]
  pictured other hother := by
    rcases List.mem_append.1 hother with hold | hlast
    · -- The URL of another key stays.
      have hmem : sharedKey resource other.accessor ∈ keysOf resource calls :=
        List.mem_map_of_mem (h.sublist.subset hold)
      have hne : sharedKey resource other.accessor ≠ sharedKey resource handling.accessor :=
        fun heq => hkey (heq ▸ hmem)
      rw [Function.update_of_ne hne]
      exact h.pictured other hold
    · obtain rfl := List.mem_singleton.1 hlast
      rw [Function.update_self]
      exact ⟨header, hpictured⟩

end

/-- What is noted for one more accessor leaves the notes on the others as they are. -/
theorem Tabled.uses_concat (h : Tabled resource url calls table) {handling : Handling}
    (hnames : ∀ other ∈ calls, other.accessor.name ≠ handling.accessor.name) {header : Image.Header}
    (hheader : Image.sniff? (resource handling.accessor).bytes = some header) :
    ∀ other ∈ calls ++ [handling], ∃ header',
      Image.sniff? (resource other.accessor).bytes = some header' ∧
        (table.uses.insert handling.accessor.name
          (.of handling.accessor (resource handling.accessor) header)).get? other.accessor.name =
            some (.of other.accessor (resource other.accessor) header') := by
  rw [List.forall_mem_append, List.forall_mem_singleton]
  refine ⟨fun other hold => ?_, header, hheader, OrderedMap.get?_insert_self _ _ _⟩
  obtain ⟨header', hheader', huse⟩ := h.uses other hold
  exact ⟨header', hheader', (OrderedMap.get?_insert_of_ne _ _ (hnames other hold)).trans huse⟩

theorem Tabled.images_insert (h : Tabled resource url calls table) (key address : String) (other : String)
    (image : DeployedImage)
    (hget : (table.images.insert key ⟨Literal.stringExpression address, none⟩).get? other = some image) :
    image = ⟨Literal.stringExpression (Function.update url key address other), none⟩ := by
  rw [OrderedMap.get?_insert] at hget
  split at hget
  · rename_i hsame
    rw [hsame, Function.update_self]
    exact (Option.some.inj hget).symm
  · rename_i hne
    rw [Function.update_of_ne hne]
    exact h.images other image hget

theorem Tabled.gains {context : Context} (h : Tabled resource url calls table)
    (hdeploys : DeploysOnce context resource url calls deploying) {handling : Handling}
    (hnames : ∀ other ∈ calls, other.accessor.name ≠ handling.accessor.name)
    (hfound : handling.Found context (resource handling.accessor)) {header : Image.Header}
    (hheader : Image.sniff? (resource handling.accessor).bytes = some header)
    (hiff : handling.Deploys (resource handling.accessor) ↔
      table.images.contains (sharedKey resource handling.accessor) = false)
    {images : OrderedMap String DeployedImage}
    (hgains : Generator.Gains table.images (sharedKey resource handling.accessor)
      (context.deployment.Addresses (resource handling.accessor).fileName header.format.mimeType
        (resource handling.accessor).bytes handling.accessor.embed) images) :
    ∃ deploying' url', DeploysOnce context resource url' (calls ++ [handling]) deploying' ∧
      Tabled resource url' (calls ++ [handling]) ⟨images, table.uses.insert handling.accessor.name
        (.of handling.accessor (resource handling.accessor) header)⟩ := by
  have hnew : handling ∉ calls := fun hmem => hnames handling hmem rfl
  have huses := h.uses_concat hnames hheader
  have hkeys : images.keys = (keysOf resource (calls ++ [handling])).eraseDups := by
    rw [hgains.keys, h.keys, keysOf_concat, eraseDups_concat]
    simp only [List.mem_eraseDups]
  cases hgains with
  | known old =>
    have hold : ¬ handling.Deploys (resource handling.accessor) := by
      rw [hiff, old]
      exact Bool.noConfusion
    exact ⟨deploying, url, hdeploys.known hnew (h.contains_iff.1 old) hold, hkeys, h.images, huses⟩
  | @new address old addresses =>
    have hkey : sharedKey resource handling.accessor ∉ keysOf resource calls := by
      rw [← h.contains_iff]
      exact Bool.eq_false_iff.1 old
    have hfresh := hdeploys.fresh hnew hkey (hiff.2 old) ⟨hfound, hheader, addresses⟩
    exact ⟨_, _, hfresh, hkeys, h.images_insert _ address, huses⟩

def imageRunning (served : List Accessor) (table : ImageTable) : Running :=
  ⟨.image, ImageMemory.only table, served⟩

theorem prepareEach_image (served : List Accessor) (session : Session) (table : ImageTable) (accessor : Accessor) :
    (∃ found header images,
      Handling.Found context ⟨imageRunning served table, accessor, session⟩ found ∧
      Image.sniff? found.bytes = some header ∧
      Generator.Gains table.images (imageKey found.origin accessor.embed)
        (context.deployment.Addresses found.fileName header.format.mimeType
          found.bytes accessor.embed) images ∧
      (prepareEach context session (imageRunning served table) [accessor]).2.1 =
        imageRunning served ⟨images, table.uses.insert accessor.name (.of accessor found header)⟩) ∨
    ∃ call ∈ (prepareEach context session (imageRunning served table) [accessor]).2.2, call.failure ≠ none := by
  have hown : prepareEach context session (imageRunning served table) [accessor] =
      let own := Generator.image.prepare accessor
        (accessor.effectiveLocale context.locale)
        context session (ImageMemory.only table)
      (own.2.1, ⟨.image, own.2.2, served⟩, [⟨GeneratorKind.image.id, .prepare accessor,
        session.active, Running.error? own.1, own.2.1.active⟩]) := rfl
  rw [hown]
  rcases Generator.prepare_image accessor (accessor.effectiveLocale context.locale)
    context session table with
      ⟨next, found, header, images, hresolve, hheader, hgains, hprepare⟩ | ⟨next, error, hprepare⟩
  · rw [hprepare]
    exact .inl ⟨found, header, images, hresolve, hheader, hgains, rfl⟩
  · rw [hprepare]
    exact .inr ⟨_, List.mem_cons_self, Option.some_ne_none _⟩

theorem exists_tabled {accessors : List Accessor} (hnames : (accessors.map (·.name)).Nodup)
    (session : Session)
    (hclean : ∀ call ∈ (prepareEach context session (imageRunning served .empty) accessors).2.2,
      call.failure = none)
    (hfound : ∀ handling ∈ handlingEach context session (imageRunning served .empty) accessors,
      handling.Found context (resource handling.accessor)) :
    ∃ table deploying url,
      (prepareEach context session (imageRunning served .empty) accessors).2.1 = imageRunning served table ∧
      DeploysOnce context resource url
        (handlingEach context session (imageRunning served .empty) accessors) deploying ∧
      Tabled resource url (handlingEach context session (imageRunning served .empty) accessors) table := by
  -- From the end, as every call finds the table that the calls before it have left.
  induction accessors using List.reverseRecOn with
  | nil =>
    refine ⟨.empty, [], id, rfl, ⟨.slnil, fun handling hmem => ?_, rfl, fun handling hmem => ?_⟩, tabled_empty⟩
    · exact absurd hmem List.not_mem_nil
    · exact absurd hmem List.not_mem_nil
  | append_singleton accessors accessor ih =>
    rw [List.map_append, List.nodup_append] at hnames
    rw [prepareEach_append] at hclean ⊢
    rw [handlingEach_append] at hfound ⊢
    dsimp only at hclean hfound ⊢
    rw [List.forall_mem_append] at hclean hfound
    obtain ⟨table, deploying, url, hrunning, hdeploys, htabled⟩ := ih hnames.1 hclean.1 hfound.1
    rw [hrunning] at hclean hfound ⊢
    rcases prepareEach_image served _ table accessor with
      ⟨found, header, images, hresource, hheader, hgains, hlater⟩ | ⟨call, hcall, hfailure⟩
    · have hown := hfound.2 _ List.mem_cons_self
      obtain rfl : found = resource accessor := Except.ok.inj (hresource.symm.trans hown)
      obtain ⟨deploying', url', hdeploys', htabled'⟩ := htabled.gains hdeploys
        (fun other hother => hnames.2.2 _
          (List.mem_map_of_mem (accessor_of_mem_handlingEach context hother)) _ List.mem_cons_self)
        hown hheader (Handling.deploys_image_iff hheader) hgains
      exact ⟨_, deploying', url', hlater, hdeploys', htabled'⟩
    · exact absurd (hclean.2 call hcall) hfailure

/-! ### Sharing in a pass -/

section

variable {σ : Type} [Sink σ] (plan : Plan) (bundle : Bundle) (locale : Option String) (world : World σ)

/-- The calls of a pass that prepare image accessors. -/
def imageCalls : List Handling := callsOf plan bundle locale world GeneratorKind.image.id

/-- The accessors of the image generator share what is deployed and defined for them if their resources have the same
origin and their decisions on embedding are the same. -/
structure SharesByOrigin (served : List Accessor) (expression : Accessor → String)
    (resource : Accessor → Resource) (field url : String → String) : Prop where
  handled : (imageCalls plan bundle locale world).map (·.accessor) = served
  found : ∀ handling ∈ imageCalls plan bundle locale world,
    handling.Found (plan.context bundle locale) (resource handling.accessor)
  /-- One image is deployed for each key. -/
  deploys : ∃ deploying, DeploysOnce (plan.context bundle locale) resource url
    (imageCalls plan bundle locale world) deploying
  /-- One static is defined for each key, and the built-in generators define no other. -/
  defines : ∃ before after,
    (defined plan bundle locale (opening world) (tasksOf plan bundle)).2.1.fields =
      before ++ ((served.map (sharedKey resource)).eraseDups.map fun key =>
        imageStatic (field key) (Literal.stringExpression (url key))) ++ after ∧
    (plan.registry.BuiltIn → before = [] ∧ after = [])
  publishes : ∀ accessor ∈ served, Publishes plan bundle locale world (field (sharedKey resource accessor))
    (url (sharedKey resource accessor))
  shows : ∀ accessor ∈ served, ∃ header, Image.sniff? (resource accessor).bytes = some header ∧
    expression accessor =
      (plan.context bundle locale).originComment (resource accessor).origin ++
        imageExpression accessor.name (field (sharedKey resource accessor))
          (.of accessor (resource accessor) header)
  field_eq_iff : ∀ accessor ∈ served, ∀ other ∈ served,
    field (sharedKey resource accessor) = field (sharedKey resource other) ↔
      (resource accessor).origin = (resource other).origin ∧ accessor.embed = other.embed

end

/-- Accessors whose images have the same bytes share a field if their decisions on embedding are the same. -/
def SharesByPayload (served : List Accessor) (resource : Accessor → Resource) (field : String → String) : Prop :=
  ∀ accessor ∈ served, ∀ other ∈ served, (resource accessor).bytes = (resource other).bytes →
    accessor.embed = other.embed → field (sharedKey resource accessor) = field (sharedKey resource other)

variable {plan : Plan} {bundle : Bundle} {locale : Option String} {σ : Type} {world : World σ}

theorem alone_image (hbuiltIn : plan.registry.BuiltIn) (session : Session) :
    Alone GeneratorKind.image
      (prepareAll context session (tasksOf plan bundle)).2.1 := by
  have htasks := tasks_prepareAll context session (tasksOf plan bundle)
  refine ⟨nodup_ids_prepareAll plan bundle context session, fun running hrunning hid => ?_⟩
  have hkind : running.kind ∈ GeneratorKind.builtIn :=
    kinds_of_tasks htasks hbuiltIn.kind_mem running (List.mem_append_right _ hrunning)
  obtain ⟨kind, memory, accessors⟩ := running
  simp only [GeneratorKind.builtIn, List.mem_cons, List.not_mem_nil, or_false] at hkind
  rcases hkind with rfl | rfl | rfl | rfl
  · exact fun _ _ _ _ => rfl
  · exact fun _ _ _ _ => rfl
  · exact absurd rfl hid
  · exact fun _ _ _ _ => rfl

variable [Sink σ]

section

variable {type : GeneratedType} (hnames : (bundle.accessors.map (·.name)).Nodup)
  (hrun : (run plan bundle locale world).result = .generated type)
  (htask : ⟨.image, served⟩ ∈ tasksOf plan bundle)
include hnames hrun htask

/-- The image generator has prepared all its accessors. -/
theorem exists_table :
    ∃ (resource : Accessor → Resource) (url : String → String) (table : ImageTable),
      (imageCalls plan bundle locale world).map (·.accessor) = served ∧
      (∀ handling ∈ imageCalls plan bundle locale world,
        handling.Found (plan.context bundle locale) (resource handling.accessor)) ∧
      (∃ deploying, DeploysOnce (plan.context bundle locale) resource url
        (imageCalls plan bundle locale world) deploying) ∧
      Tabled resource url (imageCalls plan bundle locale world) table ∧
      imageRunning served table ∈
        (prepareAll (plan.context bundle locale) (opening world) (tasksOf plan bundle)).2.1 := by
  obtain ⟨-, source, hwork, -⟩ := run_generated hrun
  have hgrouped := Dispatch.grouped_ofBundle plan.registry plan.hierarchy bundle
  obtain ⟨before, -, hstart⟩ := exists_start (plan.context bundle locale) (opening world) htask
  let started := starting (plan.context bundle locale) GeneratorKind.image before
  have hstarted : started.1 = .ok () ∧ started.2.2 = ImageMemory.only .empty :=
    starting_image _ _ before
  obtain ⟨hrunning, -, hjournal, honly⟩ := hstart hstarted.1
  have hfirst : (⟨.image, started.2.2, served⟩ : Running) = imageRunning served .empty :=
    congrArg (Running.mk GeneratorKind.image · served) hstarted.2
  have hcalls : imageCalls plan bundle locale world =
      handlingEach (plan.context bundle locale) started.2.1 (imageRunning served .empty) served := by
    rw [imageCalls, callsOf, handlings_of_generated hrun, ← hfirst]
    exact honly hgrouped.nodup_ids
  have hhandled : (imageCalls plan bundle locale world).map (·.accessor) = served :=
    map_accessor_callsOf hrun htask
  obtain ⟨resource, hfound⟩ : ∃ resource : Accessor → Resource, ∀ handling ∈ imageCalls plan bundle locale world,
      handling.Found (plan.context bundle locale) (resource handling.accessor) :=
    exists_resource hrun htask hnames
  obtain ⟨table, deploying, url, hlast, hdeploys, htabled⟩ := exists_tabled
    (hnames.sublist ((served_sublist htask).map _)) started.2.1
    (fun call hcall => (work_ok hwork).1 call (hjournal (hfirst ▸ hcall)))
    (fun handling hmem => hfound handling (hcalls ▸ hmem))
  rw [← hcalls] at hdeploys htabled
  refine ⟨resource, url, table, hhandled, hfound, ⟨deploying, hdeploys⟩, htabled, ?_⟩
  rw [← hlast, ← hfirst]
  exact hrunning

end

section

omit [Sink σ]

theorem Tabled.statics_eq (h : Tabled resource url calls table) (ident : String → String) :
    table.images.entries.map (fun entry => imageStatic (ident entry.1) entry.2.urlExpression) =
      (keysOf resource calls).eraseDups.map fun key =>
        imageStatic (ident key) (Literal.stringExpression (url key)) := by
  rw [← h.keys, OrderedMap.keys, List.map_map]
  refine List.map_congr_left fun entry hentry => ?_
  rw [h.images entry.1 entry.2 (OrderedMap.get?_eq_some_iff.2 hentry)]
  rfl

/-- Every accessor that was prepared has an image in the table and a note on how it shows that image. -/
theorem Tabled.exists_use (h : Tabled resource url calls table) {accessor : Accessor}
    (hmem : accessor ∈ calls.map (·.accessor)) :
    ∃ header image, Image.sniff? (resource accessor).bytes = some header ∧
      table.uses.get? accessor.name = some (.of accessor (resource accessor) header) ∧
      table.images.get? (sharedKey resource accessor) = some image := by
  obtain ⟨handling, hhandling, rfl⟩ := List.mem_map.1 hmem
  have hkey : sharedKey resource handling.accessor ∈ table.images.keys := by
    rw [h.keys, List.mem_eraseDups]
    exact List.mem_map_of_mem hhandling
  obtain ⟨header, hheader, huse⟩ := h.uses handling hhandling
  obtain ⟨image, himage⟩ := OrderedMap.mem_keys_iff.1 hkey
  exact ⟨header, image, hheader, huse, himage⟩

/-- If each key has a field of its own, a field tells origins and decisions on embedding apart. -/
theorem field_eq_iff {field : String → String}
    (hnodup : ((served.map (sharedKey resource)).eraseDups.map field).Nodup) {accessor other : Accessor}
    (haccessor : accessor ∈ served) (hother : other ∈ served) :
    field (sharedKey resource accessor) = field (sharedKey resource other) ↔
      (resource accessor).origin = (resource other).origin ∧ accessor.embed = other.embed := by
  constructor
  · intro hsame
    apply Generator.imageKey_inj
    exact List.inj_on_of_nodup_map hnodup (List.mem_eraseDups.2 (List.mem_map_of_mem haccessor))
      (List.mem_eraseDups.2 (List.mem_map_of_mem hother)) hsame
  · rintro ⟨horigin, hembed⟩
    rw [sharedKey, sharedKey, horigin, hembed]

end

/-- In a successful pass the image accessors share what is deployed and defined for them by the origin of their images
and the decision on embedding. They share it by the bytes of their images exactly if images with the same bytes and the
same decision have the same origin. -/
theorem sharesByPayload_iff_of_generated {type : GeneratedType} (hnames : (bundle.accessors.map (·.name)).Nodup)
    (hrun : (run plan bundle locale world).result = .generated type) :
    ∃ answer expression holder slot,
      Wiring plan bundle locale world (moduleOf plan bundle locale world) answer expression holder slot ∧
      ∀ served, ⟨.image, served⟩ ∈ tasksOf plan bundle → ∃ resource field url,
        SharesByOrigin plan bundle locale world served expression resource field url ∧
        (SharesByPayload served resource field ↔ ∀ accessor ∈ served, ∀ other ∈ served,
          (resource accessor).bytes = (resource other).bytes → accessor.embed = other.embed →
            (resource accessor).origin = (resource other).origin) := by
  obtain ⟨hrefused, source, hwork, -⟩ := run_generated hrun
  obtain ⟨answer, expression, hanswered⟩ := exists_answers hrefused hwork hnames
  obtain ⟨holder, slot, hwiring⟩ := exists_wiring_of_answered hnames hrun hanswered
  refine ⟨answer, expression, holder, slot, hwiring, fun served htask => ?_⟩
  obtain ⟨resource, url, table, hhandled, hfound, hdeploys, htabled, hrunning⟩ := exists_table hnames hrun htask
  have hnone : ∀ key image, table.images.get? key = some image → image.field = none := by
    intro key image hget
    rw [htabled.images key image hget]
  obtain ⟨field, before, after, hfields, halone, hanswers⟩ := exists_imageFields hnone hrunning
  have hkeys : keysOf resource (imageCalls plan bundle locale world) = served.map (sharedKey resource) := by
    rw [← hhandled, List.map_map]
    rfl
  rw [htabled.statics_eq, hkeys] at hfields
  -- The registry never gives an identifier twice.
  have hnodup : ((served.map (sharedKey resource)).eraseDups.map field).Nodup := by
    have hidents : (reservedIdents ++ (defined plan bundle locale (opening world)
      (tasksOf plan bundle)).2.1.fields.map (·.ident)).Nodup := FieldRegistry.nodup_idents _
    rw [hfields, List.map_append, List.map_append, List.map_map] at hidents
    exact hidents.of_append_right.of_append_left.of_append_right
  have hshares : SharesByOrigin plan bundle locale world served expression resource field url := by
    constructor
    case handled => exact hhandled
    case found => exact hfound
    case deploys => exact hdeploys
    case defines => exact ⟨before, after, hfields, fun hbuiltIn => halone (alone_image hbuiltIn _)⟩
    case publishes =>
      intro accessor hserved
      apply publishes_of_mem
      rw [hfields, List.mem_append, List.mem_append]
      exact .inl (.inr (List.mem_map_of_mem (List.mem_eraseDups.2 (List.mem_map_of_mem hserved))))
    case shows =>
      intro accessor hserved
      obtain ⟨header, image, hheader, huse, himage⟩ := htabled.exists_use (hhandled ▸ hserved)
      obtain ⟨-, hsaid⟩ := hanswers accessor hserved _ image huse himage
      have hexpression := (hanswered accessor ((served_sublist htask).subset hserved)).expression_eq hsaid
      exact ⟨header, hheader, hexpression⟩
    case field_eq_iff => exact fun accessor haccessor other hother => field_eq_iff hnodup haccessor hother
  refine ⟨resource, field, url, hshares, ?_⟩
  refine forall₂_congr fun accessor haccessor => forall₂_congr fun other hother => ?_
  refine forall₂_congr fun hbytes hembed => ?_
  rw [field_eq_iff hnodup haccessor hother, and_iff_left hembed]

/-- An image that is shown twice, and a copy of it under another name. -/
def badges : Bundle where
  name := ⟨"crate::Badges"⟩
  accessors :=
    [{ name := "badge", kind := .imageResource, source := some ["badge.gif"] },
     { name := "again", kind := .imageResource, source := some ["badge.gif"], width := some 32 },
     { name := "copy", kind := .imageResource, source := some ["copy.gif"] }]

def badgeFile (accessor : Accessor) : String := if accessor.name = "copy" then "copy.gif" else "badge.gif"

def badgesWorld : World MemorySink where
  files := .empty
  finder := (({} : Finder).embed "badge.gif" emblemBytes).embed "copy.gif" emblemBytes
  sink := {}

theorem sharesByPayload_iff_badges : ∃ expression resource field url,
    SharesByOrigin pagePlan badges none badgesWorld badges.accessors expression resource field url ∧
    (∀ accessor ∈ badges.accessors, (resource accessor).bytes = emblemBytes) ∧
    ¬ SharesByPayload badges.accessors resource field := by
  have htask : ⟨.image, badges.accessors⟩ ∈ tasksOf pagePlan badges := List.mem_cons_self
  have hrun : (run pagePlan badges none badgesWorld).result =
      .generated ⟨⟨"crate::Badges"⟩, none, "crate::BadgesImpl", none⟩ := by decide +kernel
  have hone : ∀ handling ∈ handlings pagePlan badges none badgesWorld,
      (handling.session.resolve (pagePlan.context badges none) handling.accessor
        (handling.accessor.effectiveLocale none)).1 =
          .ok ⟨"embedded:" ++ badgeFile handling.accessor, badgeFile handling.accessor, emblemBytes⟩ := by
    decide +kernel
  obtain ⟨_, expression, _, _, -, hshares⟩ := sharesByPayload_iff_of_generated (by decide) hrun
  obtain ⟨resource, field, url, hshares, hiff⟩ := hshares badges.accessors htask
  have hresource : ∀ accessor ∈ badges.accessors,
      resource accessor = ⟨"embedded:" ++ badgeFile accessor, badgeFile accessor, emblemBytes⟩ := by
    intro accessor hserved
    rw [← hshares.handled] at hserved
    obtain ⟨handling, hmem, rfl⟩ := List.mem_map.1 hserved
    exact Except.ok.inj ((hshares.found handling hmem).symm.trans (hone handling (List.mem_filter.1 hmem).1))
  refine ⟨expression, resource, field, url, hshares, fun accessor hserved => ?_, fun hpayload => ?_⟩
  · rw [hresource accessor hserved]
  · have hcopy : badges.accessors[2] ∈ badges.accessors := List.getElem_mem _
    have horigin := hiff.1 hpayload _ List.mem_cons_self _ hcopy
    rw [hresource _ List.mem_cons_self, hresource _ hcopy] at horigin
    exact absurd (horigin rfl rfl) (by decide)

end Pass

end BundleForge
