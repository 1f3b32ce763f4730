import BundleForge.Proofs.Image
import BundleForge.Proofs.Pass.Memories
import BundleForge.Proofs.Pass.Wiring
/-!
# Images through a pass

Accessors whose images have the same origin share a static field if they decide alike on embedding. The image is
found and deployed for the first of them, the field is defined for the image, and each accessor is answered with a
field that it looks up by the key of its image.
-/

namespace BundleForge.Pass

open Lexical (IsPath)
open Generator (ImageMemory ImageUse DeployedImage imageKey imageStatic imageExpression sayImage)

variable {context : Context} {id : GeneratorId} {served : List Accessor}

/-- The image that a generator finds for an accessor, with its header and its URL. -/
structure Pictured (context : Context) (handling : Handling) (resource : Resource)
    (header : Image.Header) (url : String) : Prop where
  found : handling.Found context resource
  recognized : Image.sniff? resource.bytes = some header
  addresses : context.deployment.Addresses resource.fileName header.format.mimeType resource.bytes
    handling.accessor.embed url

/-! ### Preparing images -/

/-- Every image has no field yet, and the URL of a resource that was found for some accessor. -/
def Accounted (context : Context) (id : GeneratorId) (calls : List Handling)
    (images : OrderedMap String DeployedImage) : Prop :=
  ∀ key image, images.get? key = some image →
    ∃ handling ∈ calls, handling.running.id = id ∧ ∃ resource header url,
      Pictured context handling resource header url ∧
      key = imageKey resource.origin handling.accessor.embed ∧
      image = ⟨Literal.stringExpression url, none⟩

/-- The memory of an image generator between the calls that prepare accessors. -/
def Working (context : Context) (id : GeneratorId) (calls : List Handling) (memory : ImageMemory) :
    Prop :=
  ∃ table, memory = .only table ∧ Accounted context id calls table.images

/-- The same, with the image of an accessor in the table. -/
def Noted (context : Context) (id : GeneratorId) (calls : List Handling) (name : String)
    (use : ImageUse) (memory : ImageMemory) : Prop :=
  ∃ table, memory = .only table ∧ Accounted context id calls table.images ∧
    table.uses.get? name = some use ∧ use.imageKey ∈ table.images.keys

variable {calls : List Handling} {accessor : Accessor} {session : Session} {memory : ImageMemory}

/-- Preparing an accessor keeps the table accounted for. If it succeeds the image of the accessor is noted, and
anyhow those of other accessors stay noted. -/
theorem prepares_image
    (hhandling : ⟨⟨⟨id, .image⟩, memory, served⟩, accessor, session⟩ ∈ calls)
    (h : Working context id calls memory) :
    let own := preparation context ⟨id, .image⟩ accessor session memory
    Working context id calls own.2.2 ∧
    (own.1 = .ok () → ∃ resource header,
      Handling.Found context ⟨⟨⟨id, .image⟩, memory, served⟩, accessor, session⟩ resource ∧
      Image.sniff? resource.bytes = some header ∧
      Noted context id calls accessor.name (.of accessor resource header) own.2.2) ∧
    ∀ name use, accessor.name ≠ name → Noted context id calls name use memory →
      Noted context id calls name use own.2.2 := by
  obtain ⟨table, rfl, haccounted⟩ := h
  have hown : preparation context ⟨id, .image⟩ accessor session (ImageMemory.only table) =
    Generator.image.prepare accessor (accessor.effectiveLocale context.locale) context session
      (.only table) := rfl
  rcases Generator.prepare_image accessor (accessor.effectiveLocale context.locale) context
    session table with ⟨next, resource, header, images, hfound, hheader, hgains, hprepare⟩ |
      ⟨next, error, hprepare⟩
  · rw [hown, hprepare]
    have hnext : Accounted context id calls images := by
      intro key image hget
      rcases hgains.get? hget with hold | ⟨rfl, url, haddresses, rfl⟩
      · exact haccounted key image hold
      · exact ⟨_, hhandling, rfl, resource, header, url, ⟨hfound, hheader, haddresses⟩, rfl, rfl⟩
    refine ⟨⟨_, rfl, hnext⟩, fun _ => ⟨resource, header, hfound, hheader, _, rfl, hnext, ?_, ?_⟩, ?_⟩
    · exact OrderedMap.get?_insert_self _ _ _
    · exact hgains.mem_keys.1
    · intro name use hne ⟨table', hsame, _, huse, hkey⟩
      obtain rfl := (List.cons.inj (congrArg ImageMemory.tables hsame)).1
      refine ⟨_, rfl, hnext, ?_, hgains.mem_keys.2 _ hkey⟩
      exact (OrderedMap.get?_insert_of_ne _ _ hne.symm).trans huse
  · rw [hown, hprepare]
    exact ⟨⟨table, rfl, haccounted⟩, fun hok => absurd hok (by simp), fun _ _ _ hnoted => hnoted⟩

/-! ### Images of a pass -/

theorem starting_image (context : Context) (id : GeneratorId) (session : Session) :
    (starting context ⟨id, .image⟩ session).1 = .ok () ∧
    (starting context ⟨id, .image⟩ session).2.2 = ImageMemory.only .empty :=
  ⟨rfl, rfl⟩

section

variable {σ : Type} [Sink σ] (plan : Plan) (bundle : Bundle) (locale : Option String)
  (world : World σ)

/-- The calls of a pass in which a generator prepares its accessors. -/
def callsOf (id : GeneratorId) : List Handling :=
  (handlings plan bundle locale world).filter (·.running.id = id)

/-- A static of the module denotes a text, and was defined before any accessor was asked for. -/
def Publishes (ident text : String) : Prop :=
  ∃ expression, Denotes expression text ∧
    imageStatic ident expression ∈
      (defined plan bundle locale (opening world) (tasksOf plan bundle)).2.1.fields ∧
    (moduleOf plan bundle locale world).statics.filter (·.ident = ident) =
      [Implementation.staticMember (imageStatic ident expression)]

end

variable {σ : Type} [Sink σ] {plan : Plan} {bundle : Bundle} {locale : Option String}
  {world : World σ}

theorem handlings_of_generated {type : GeneratedType}
    (hrun : (run plan bundle locale world).result = .generated type) :
    handlings plan bundle locale world =
      handlingAll (plan.context bundle locale) (opening world) (tasksOf plan bundle) := by
  obtain ⟨hrefused, _, -, claim, _, _, hclaim, -⟩ := run_generated hrun
  unfold handlings
  rw [hclaim, hrefused]

theorem exists_noted {tasks : List Task} {session : Session}
    (hclean : ∀ call ∈ (prepareAll context session tasks).2.2, call.failure = none)
    (htask : ⟨⟨id, .image⟩, served⟩ ∈ tasks)
    (hfilter : served.filter (·.name = accessor.name) = [accessor]) :
    ∃ handling ∈ handlingAll context session tasks,
      handling.accessor = accessor ∧ handling.running.id = id ∧ ∃ resource header last,
        handling.Found context resource ∧ Image.sniff? resource.bytes = some header ∧
        Noted context id (handlingAll context session tasks) accessor.name
          (.of accessor resource header) last ∧
        ⟨⟨id, .image⟩, last, served⟩ ∈ (prepareAll context session tasks).2.1 := by
  obtain ⟨before, -, hstart⟩ := exists_start context session htask
  obtain ⟨hok, hfirst⟩ := starting_image context id before
  obtain ⟨hrunning, hhandlings, hjournal, -⟩ := hstart hok
  obtain ⟨found, memory, last, hlast, hprepares⟩ := exists_prepares context served hfilter
    (starting context ⟨id, .image⟩ before).2.1 (starting context ⟨id, .image⟩ before).2.2
  have hworking : Working context id (handlingAll context session tasks) memory := by
    apply hprepares.reached
    · intro other session' memory' hmem hworking
      exact (prepares_image (hhandlings hmem) hworking).1
    · rw [hfirst]
      exact ⟨.empty, rfl, fun key image hget => by simp [Generator.ImageTable.empty] at hget⟩
  obtain ⟨-, hnoted, -⟩ := prepares_image (hhandlings hprepares.handled) hworking
  have hsucceeds := error?_eq_none_iff.1 (hclean _ (hjournal hprepares.called))
  obtain ⟨resource, header, hfound, hheader, hown⟩ := hnoted hsucceeds.choose_spec
  refine ⟨_, hhandlings hprepares.handled, rfl, rfl, resource, header, last, hfound, hheader, ?_, ?_⟩
  · apply hprepares.keeps _ ?_ hown
    intro other session' memory' hmem hname ⟨table, hmemory, haccounted, hkept⟩
    exact (prepares_image (hhandlings hmem) ⟨table, hmemory, haccounted⟩).2.2 _ _ hname
      ⟨table, hmemory, haccounted, hkept⟩
  · rw [← hlast]
    exact hrunning

theorem nodup_ids_prepareAll (plan : Plan) (bundle : Bundle) (context : Context) (session : Session) :
    ((prepareAll context session (tasksOf plan bundle)).2.1.map (·.id)).Nodup := by
  have hmap := congrArg (List.map (·.kind.id)) (tasks_prepareAll context session (tasksOf plan bundle))
  rw [List.map_map] at hmap
  have hids : (prepareAll context session (tasksOf plan bundle)).2.1.map (·.id) =
      (tasksOf plan bundle).map (·.kind.id) := hmap
  rw [hids]
  exact (Dispatch.grouped_ofBundle plan.registry plan.hierarchy bundle).nodup_ids

section

variable {type : GeneratedType} (hrun : (run plan bundle locale world).result = .generated type)
  (htask : ⟨⟨id, .image⟩, served⟩ ∈ tasksOf plan bundle)
include hrun htask

theorem map_accessor_callsOf : (callsOf plan bundle locale world id).map (·.accessor) = served := by
  obtain ⟨before, -, hstart⟩ := exists_start (plan.context bundle locale) (opening world) htask
  obtain ⟨-, -, -, honly⟩ := hstart (starting_image _ id before).1
  have hcalls := honly (Dispatch.grouped_ofBundle plan.registry plan.hierarchy bundle).nodup_ids
  rw [callsOf, handlings_of_generated hrun, hcalls, map_accessor_handlingEach]

theorem exists_resource (hnames : (bundle.accessors.map (·.name)).Nodup) :
    ∃ resource : Accessor → Resource, ∀ handling ∈ callsOf plan bundle locale world id,
      handling.Found (plan.context bundle locale) (resource handling.accessor) := by
  obtain ⟨-, source, hwork, -⟩ := run_generated hrun
  have hhandled := map_accessor_callsOf hrun htask
  have hserved := served_sublist htask
  have hnodup : served.Nodup := (hnames.of_map _).sublist hserved
  have hexists : ∀ accessor : Accessor, ∃ resource : Resource,
      ∀ handling ∈ callsOf plan bundle locale world id, handling.accessor = accessor →
        handling.Found (plan.context bundle locale) resource := by
    intro accessor
    by_cases hmem : accessor ∈ served
    · obtain ⟨handling, hhandling, rfl, hid, resource, -, -, hfound, -⟩ := exists_noted (work_ok hwork).1 htask
        (filter_served (filter_eq_singleton hnames (hserved.subset hmem)) htask hmem)
      rw [← handlings_of_generated hrun] at hhandling
      refine ⟨resource, fun other hother hsame => ?_⟩
      have heq : other = handling := List.inj_on_of_nodup_map (hhandled ▸ hnodup) hother
        (List.mem_filter.2 ⟨hhandling, decide_eq_true hid⟩) hsame
      exact heq ▸ hfound
    · refine ⟨⟨"", "", []⟩, fun handling hhandling hsame => absurd ?_ hmem⟩
      exact hhandled ▸ hsame ▸ List.mem_map_of_mem hhandling
  choose resource hresource using hexists
  exact ⟨resource, fun handling hhandling => hresource _ handling hhandling rfl⟩

end

theorem recites_image : Recites Generator.image sayImage := fun _ _ _ _ _ => rfl

omit [Sink σ] in
/-- The generator defines a static for each image in its table, and answers for each of its accessors with the static of
the image under the key of that accessor. -/
theorem exists_imageFields {table : Generator.ImageTable}
    (hnone : ∀ key image, table.images.get? key = some image → image.field = none)
    (hrunning : ⟨⟨id, .image⟩, ImageMemory.only table, served⟩ ∈
      (prepareAll (plan.context bundle locale) (opening world) (tasksOf plan bundle)).2.1) :
    ∃ (ident : String → String) (before after : List Field),
      (defined plan bundle locale (opening world) (tasksOf plan bundle)).2.1.fields =
        before ++ table.images.entries.map (fun entry => imageStatic (ident entry.1) entry.2.urlExpression) ++
          after ∧
      (Alone ⟨id, .image⟩
        (prepareAll (plan.context bundle locale) (opening world) (tasksOf plan bundle)).2.1 →
          before = [] ∧ after = []) ∧
      ∀ accessor ∈ served, ∀ use image, table.uses.get? accessor.name = some use →
        table.images.get? use.imageKey = some image → IsPath (ident use.imageKey).toList ∧
        ⟨⟨id, .image⟩, accessor, .ok ((plan.context bundle locale).originComment use.origin ++
          imageExpression accessor.name (ident use.imageKey) use)⟩ ∈
            answersOf plan bundle locale (opening world) (tasksOf plan bundle) := by
  obtain ⟨before, registry, hdefined, ⟨after, hafter⟩, halone⟩ := exists_defining (plan.context bundle locale)
    hrunning (prepareAll (plan.context bundle locale) (opening world) (tasksOf plan bundle)).1 .empty
  obtain ⟨ident, images, fields, hrun, hnamed, hstatics⟩ :=
    Generator.createFields_image hnone (plan.context bundle locale) (before.select id) registry
  have hdefining : defining (plan.context bundle locale) ⟨id, .image⟩ before
      (ImageMemory.only table) registry =
        ((.ok (), before.select id, .only ⟨images, table.uses⟩), fields) := hrun
  rw [hdefining] at hdefined hafter halone
  rw [hstatics] at hafter
  refine ⟨ident, registry.fields, after, hafter.symm, fun h => ?_, fun accessor hserved use image huse himage => ?_⟩
  · obtain ⟨rfl, hlast⟩ := halone h
    rw [hlast, hstatics] at hafter
    exact ⟨rfl, List.append_right_eq_self.1 hafter⟩
  · obtain ⟨hlater, hpath⟩ := hnamed _ _ himage
    have hanswer := recited_mem_answersAll (plan.context bundle locale) recites_image hserved hdefined
      (defined plan bundle locale (opening world) (tasksOf plan bundle)).1
    have hsaid := @Generator.sayImage_only ⟨images, table.uses⟩ accessor use _ _ huse hlater
      (plan.context bundle locale)
      (accessor.effectiveLocale (plan.context bundle locale).locale)
    dsimp only at hanswer
    unfold recited at hanswer
    rw [hsaid] at hanswer
    exact ⟨hpath, hanswer⟩

omit [Sink σ] in
theorem publishes_of_mem {ident url : String}
    (h : imageStatic ident (Literal.stringExpression url) ∈
      (defined plan bundle locale (opening world) (tasksOf plan bundle)).2.1.fields) :
    Publishes plan bundle locale world ident url := by
  have hfields := fields_defineSlots
    (defined plan bundle locale (opening world) (tasksOf plan bundle)).2.1 bundle.accessors
  have hmem : imageStatic ident (Literal.stringExpression url) ∈
      (assembly plan bundle locale (opening world) (tasksOf plan bundle)).fields.fields :=
    hfields ▸ List.mem_append_left _ h
  exact ⟨_, denotes_stringExpression url, h, Implementation.filter_statics hmem rfl⟩

/-- The header of an image that is 64 pixels wide and 48 high. -/
def emblemBytes : Bytes := Bytes.ascii "GIF89a" ++ [64, 0, 48, 0]

end BundleForge.Pass
