import BundleForge.Proofs.Pass.Success
import BundleForge.Proofs.Pass.Texts
import BundleForge.Proofs.Pass.Twins
/-!
# Answers side by side

Generators that remember the same up to texts define the same fields up to texts, and answer for an accessor with
expressions that are the same up to comments and one text. What they say of an accessor is read off what they
remember, one kind of generator at a time.
-/

namespace BundleForge.Pass

open Lexical
open Generator (PreparedText DeployedData DeployedImage ImageTable ImageMemory ImageUse)

/-! ### Fields -/

variable {registry registry' : FieldRegistry}

/-- Registries whose fields differ at most in their texts. -/
def TwinFields (registry registry' : FieldRegistry) : Prop :=
  List.Forall₂ TwinField registry.fields registry'.fields

theorem TwinFields.identFor_eq (h : TwinFields registry registry') {request request' : FieldRequest}
    (hname : request.name = request'.name) (hstatic : request.isStatic = request'.isStatic) :
    registry.identFor request = registry'.identFor request' := by
  have hused : registry.used = registry'.used := by
    rw [registry.used_eq_append, registry'.used_eq_append, Implementation.map_eq h fun _ _ => TwinField.ident]
  rw [FieldRegistry.identFor, FieldRegistry.identFor, FieldRegistry.baseName, FieldRegistry.baseName, hused, hname,
    hstatic]

theorem TwinFields.define (h : TwinFields registry registry') {request request' : FieldRequest}
    (hfield : TwinField
      ⟨registry.identFor request, request.type, request.initializer, request.isStatic, request.isFinal⟩
      ⟨registry'.identFor request', request'.type, request'.initializer, request'.isStatic, request'.isFinal⟩) :
    TwinFields (registry.define request) (registry'.define request') := by
  rw [TwinFields, registry.fields_define_eq, registry'.fields_define_eq]
  exact List.rel_append h (.cons hfield .nil)

theorem twin_defineImages {images images' : List (String × DeployedImage)}
    (h : OrderedMap.Pairs TwinImage images images') (hfields : TwinFields registry registry') :
    OrderedMap.Pairs TwinImage ((Generator.defineImages images).run registry).1
      ((Generator.defineImages images').run registry').1 ∧
    TwinFields ((Generator.defineImages images).run registry).2
      ((Generator.defineImages images').run registry').2 := by
  induction h generalizing registry registry' with
  | nil => exact ⟨.nil, hfields⟩
  | @cons entry entry' rest rest' hentry _ ih =>
    obtain ⟨key, image⟩ := entry
    obtain ⟨key', image'⟩ := entry'
    obtain ⟨rfl, himage⟩ := hentry
    dsimp only at himage
    cases himage with
    | @texts field hpath text other =>
      cases field with
      | some ident =>
        obtain ⟨hrest, hdefined⟩ := ih hfields
        rw [Generator.run_defineImages_some, Generator.run_defineImages_some]
        exact ⟨.cons ⟨rfl, .texts hpath text other⟩ hrest, hdefined⟩
      | none =>
        have hident : registry.identFor (Generator.imageField (Literal.stringExpression text)) =
            registry'.identFor (Generator.imageField (Literal.stringExpression other)) := hfields.identFor_eq rfl rfl
        have hidentPath : IsPath
            (registry.identFor (Generator.imageField (Literal.stringExpression text))).toList :=
          FieldRegistry.isPath_identFor (show IsPath "externalImage".toList by decide) registry
        have hfield := TwinField.texts hidentPath (by decide : Piece "::std::string::String") true text other
        have hnext : TwinFields (registry.define (Generator.imageField (Literal.stringExpression text)))
            (registry'.define (Generator.imageField (Literal.stringExpression other))) := by
          apply hfields.define
          rw [← hident]
          exact hfield
        obtain ⟨hrest, hdefined⟩ := ih hnext
        rw [Generator.run_defineImages_none, Generator.run_defineImages_none]
        refine ⟨.cons ⟨rfl, ?_⟩ hrest, hdefined⟩
        dsimp only
        rw [← hident]
        exact .texts (fun ident hmem => Option.some.inj hmem ▸ hidentPath) text other

variable {context context' : Context}

theorem createFields_cons {kind : GeneratorKind} {served : List Accessor} (session : Session)
    (registry : FieldRegistry) (memory : kind.generator.Memory) (rest : List Running) :
    createFields context session registry (⟨kind, memory, served⟩ :: rest) =
      let own := defining context kind session memory registry
      let last := createFields context own.1.2.1 own.2 rest
      (last.1, last.2.1, ⟨kind, own.1.2.2, served⟩ :: last.2.2.1,
        ⟨kind.id, .createFields, some kind.id, Running.error? own.1.1, own.1.2.1.active⟩ :: last.2.2.2) :=
  rfl

theorem defining_image {session : Session} {memory : GeneratorKind.image.generator.Memory}
    {images : OrderedMap String DeployedImage} {uses : OrderedMap String ImageUse}
    (hmemory : memory = ImageMemory.only ⟨images, uses⟩) (registry : FieldRegistry) :
    (defining context .image session memory registry).1.2.2 =
        ImageMemory.only ⟨.ofList ((Generator.defineImages images.entries).run registry).1, uses⟩ ∧
      (defining context .image session memory registry).2 =
        ((Generator.defineImages images.entries).run registry).2 := by
  subst hmemory
  have hdefining : defining context .image session (ImageMemory.only ⟨images, uses⟩) registry =
      (Generator.image.createFields registry context (session.select GeneratorKind.image.id)
        (.only ⟨images, uses⟩)).run registry := rfl
  rw [hdefining, Generator.run_createFields_image]
  exact ⟨rfl, rfl⟩

/-- When a generator has asked for its fields, it still remembers the same in both passes, and the fields are the
same up to texts. -/
theorem twin_defining {kind kind' : GeneratorKind} {memory : kind.generator.Memory}
    {memory' : kind'.generator.Memory} {served served' : List Accessor}
    (h : TwinRunning ⟨kind, memory, served⟩ ⟨kind', memory', served'⟩) (hfields : TwinFields registry registry')
    (session session' : Session) :
    TwinRunning ⟨kind, (defining context kind session memory registry).1.2.2, served⟩
      ⟨kind', (defining context' kind' session' memory' registry').1.2.2, served'⟩ ∧
    TwinFields (defining context kind session memory registry).2
      (defining context' kind' session' memory' registry').2 := by
  cases h with
  | text haccessors memory memory' => exact ⟨.text haccessors memory memory', hfields⟩
  | data haccessors hspelling hspelling' => exact ⟨.data haccessors hspelling hspelling', hfields⟩
  | bundle haccessors => exact ⟨.bundle haccessors, hfields⟩
  | @image _ _ haccessors memory memory' htables =>
    obtain ⟨images, images', uses, hfirst, hsecond, halike⟩ := htables
    obtain ⟨hmemory, hdefined⟩ := @defining_image context session memory images uses hfirst registry
    obtain ⟨hmemory', hdefined'⟩ := @defining_image context' session' memory' images' uses hsecond registry'
    obtain ⟨hpairs, hnext⟩ := twin_defineImages halike hfields
    refine ⟨.image haccessors ⟨_, _, uses, hmemory, hmemory', OrderedMap.alike_ofList hpairs⟩, ?_⟩
    rw [hdefined, hdefined']
    exact hnext

theorem twin_createFields {generators generators' : List Running}
    (h : List.Forall₂ TwinRunning generators generators') (hfields : TwinFields registry registry')
    (session session' : Session) :
    List.Forall₂ TwinRunning (createFields context session registry generators).2.2.1
      (createFields context' session' registry' generators').2.2.1 ∧
    TwinFields (createFields context session registry generators).2.1
      (createFields context' session' registry' generators').2.1 := by
  induction h generalizing registry registry' session session' with
  | nil => exact ⟨.nil, hfields⟩
  | @cons running running' rest rest' hrunning _ ih =>
    obtain ⟨kind, memory, served⟩ := running
    obtain ⟨kind', memory', served'⟩ := running'
    rw [createFields_cons, createFields_cons]
    obtain ⟨hown, hnext⟩ := twin_defining hrunning hfields session session'
    obtain ⟨hothers, hlast⟩ := ih hnext _ _
    exact ⟨.cons hown hothers, hlast⟩

/-! ### Answers -/

def TwinSaid (said said' : Except ResourceError String) : Prop :=
  ∀ initializer initializer', said = .ok initializer → said' = .ok initializer' →
    ∃ expression expression', TwinText initializer initializer' expression expression'

variable {context context' : Context} {accessor accessor' : Accessor} {locale locale' : Option String}

theorem twin_sayText (hname : accessor.name = accessor'.name) (memory memory' : OrderedMap String PreparedText) :
    TwinSaid (sayText context memory accessor locale) (sayText context' memory' accessor' locale') := by
  intro initializer initializer' hsaid hsaid'
  unfold sayText at hsaid hsaid'
  split at hsaid
  · simp at hsaid
  · rename_i prepared _
    split at hsaid'
    · simp at hsaid'
    · rename_i prepared' _
      obtain rfl := Except.ok.inj hsaid
      obtain rfl := Except.ok.inj hsaid'
      rw [← hname]
      exact ⟨_, _, context.commented _ _, context'.commented _ _, Implementation.not_prefix_textCall _ _,
        Implementation.not_prefix_textCall _ _, Implementation.twinExpression_textCall _ _ _⟩

theorem not_prefix_dataCall (name url : String) : ¬ "//".toList <+: (dataCall name url).toList := by
  unfold dataCall
  rw [String.toList_append, String.toList_append, String.toList_append, String.toList_append]
  simp [List.cons_prefix_cons]

theorem twin_sayData (hname : accessor.name = accessor'.name) {memory memory' : OrderedMap String DeployedData}
    (h : Spelling memory) (h' : Spelling memory') :
    TwinSaid (sayData context memory accessor locale) (sayData context' memory' accessor' locale') := by
  intro initializer initializer' hsaid hsaid'
  unfold sayData at hsaid hsaid'
  split at hsaid
  · simp at hsaid
  · rename_i deployed hget
    split at hsaid'
    · simp at hsaid'
    · rename_i deployed' hget'
      obtain ⟨url, hurl⟩ := h _ _ hget
      obtain ⟨url', hurl'⟩ := h' _ _ hget'
      obtain rfl := Except.ok.inj hsaid
      obtain rfl := Except.ok.inj hsaid'
      rw [← hname, hurl, hurl']
      exact ⟨_, _, context.commented _ _, context'.commented _ _, not_prefix_dataCall _ _,
        not_prefix_dataCall _ _, Implementation.twinExpression_dataCall _ _ _⟩

theorem not_prefix_imageExpression (name field : String) (use : ImageUse) :
    ¬ "//".toList <+: (Generator.imageExpression name field use).toList := by
  unfold Generator.imageExpression
  rw [String.toList_append, String.toList_append, String.toList_append]
  simp [List.cons_prefix_cons]

theorem exists_of_sayImage {images : OrderedMap String DeployedImage} {uses : OrderedMap String ImageUse}
    {initializer : String}
    (h : Generator.sayImage context (.only ⟨images, uses⟩) accessor locale = .ok initializer) :
    ∃ use image field, uses.get? accessor.name = some use ∧ images.get? use.imageKey = some image ∧
      image.field = some field ∧
      initializer = context.originComment use.origin ++ Generator.imageExpression accessor.name field use := by
  simp only [Generator.sayImage, Generator.table?_only, bind, Except.bind] at h
  cases huse : uses.get? accessor.name with
  | none => simp [huse] at h
  | some use =>
    cases himage : (images.get? use.imageKey).bind (·.field) with
    | none => simp [huse, himage] at h
    | some field =>
      simp only [huse, himage] at h
      obtain ⟨image, hget, hfield⟩ := Option.bind_eq_some_iff.1 himage
      exact ⟨use, image, field, rfl, hget, hfield, (Except.ok.inj h).symm⟩

theorem twin_sayImage (hname : accessor.name = accessor'.name) {memory memory' : ImageMemory}
    (h : TwinTables memory memory') :
    TwinSaid (Generator.sayImage context memory accessor locale)
      (Generator.sayImage context' memory' accessor' locale') := by
  obtain ⟨images, images', uses, rfl, rfl, halike⟩ := h
  intro initializer initializer' hsaid hsaid'
  obtain ⟨use, image, field, huse, himage, hfield, rfl⟩ := exists_of_sayImage hsaid
  obtain ⟨use', image', field', huse', himage', hfield', rfl⟩ := exists_of_sayImage hsaid'
  rw [← hname] at huse' ⊢
  obtain rfl := Option.some.inj (huse.symm.trans huse')
  have hget := halike.get? use.imageKey
  rw [himage, himage'] at hget
  cases hget with
  | some hpair =>
    cases hpair with
    | texts hpath text other =>
      obtain rfl := Option.some.inj (hfield.symm.trans hfield')
      exact ⟨_, _, context.commented _ _, context'.commented _ _, not_prefix_imageExpression _ _ _,
        not_prefix_imageExpression _ _ _, Implementation.twinExpression_image (hpath field hfield) _ use⟩

section

variable {plan plan' : Plan} {bundle bundle' : Bundle} {locale : Option String}

theorem not_prefix_path {path : String} (h : IsPath path.toList) : ¬ "//".toList <+: (path ++ "::new()").toList := by
  have hslash : '/' ∉ (path ++ "::new()").toList := by
    rw [String.toList_append, List.mem_append, not_or]
    exact ⟨fun hmem => absurd (h _ hmem) (by decide), by decide⟩
  exact fun hbegins => hslash (hbegins.subset List.mem_cons_self)

theorem nestedPath_eq (hplan : plan.Alike plan') (ty : TypeName) (locale' : Option String) :
    Generator.nestedPath (plan.context bundle locale) ty locale' =
      Generator.nestedPath (plan'.context bundle' locale) ty locale' := by
  have hnested : Option.Rel _ ((plan.context bundle locale).bundles.get? ty)
    ((plan'.context bundle' locale).bundles.get? ty) := hplan.bundles ty
  unfold Generator.nestedPath
  generalize (plan.context bundle locale).bundles.get? ty = nested at hnested ⊢
  generalize (plan'.context bundle' locale).bundles.get? ty = nested' at hnested ⊢
  cases hnested with
  | none => rfl
  | some hsame =>
    dsimp only
    rw [Bundle.implementationPath, Bundle.implementationPath, Bundle.implementation, Bundle.implementation, hsame.1,
      hsame.2]

theorem isPath_implementationPath {nested : Bundle} (h : nested.Named) {locale : Option String}
    (hlocale : ∀ text ∈ locale, IsPath text.toList) : IsPath (nested.implementationPath locale).toList :=
  TypeName.isPath_qualify (TypeName.isPath_modulePath h.name)
    (Bundle.isPath_implementationName h.enclosing (TypeName.isPath_simpleName h.name) hlocale)

theorem isPath_effectiveLocale (hnamed : plan.Named bundle locale) {accessor : Accessor} (h : accessor.Named) :
    ∀ text ∈ accessor.effectiveLocale locale, IsPath text.toList := by
  intro text htext
  unfold Accessor.effectiveLocale at htext
  cases hlocale : accessor.locale with
  | none =>
    rw [hlocale] at htext
    exact hnamed.locale_path text htext
  | some own =>
    rw [hlocale] at htext
    exact h.locale text (hlocale ▸ htext)

theorem isPath_nestedPath (hnamed : plan.Named bundle locale) {accessor : Accessor} (h : accessor.Named) :
    IsPath (Generator.nestedPath (plan.context bundle locale) accessor.kind
      (accessor.effectiveLocale locale)).toList := by
  have hlocale := isPath_effectiveLocale hnamed h
  unfold Generator.nestedPath
  split
  · rename_i nested hnested
    exact isPath_implementationPath (hnamed.nested_named _ _ hnested).2 hlocale
  · apply TypeName.isPath_qualify (TypeName.isPath_modulePath h.kind)
    exact Bundle.isPath_implementationName (fun _ hmem => absurd hmem List.not_mem_nil)
      (TypeName.isPath_simpleName h.kind) hlocale

theorem twin_sayNested (hplan : plan.Alike plan') (hnamed : plan.Named bundle locale) {id : GeneratorId}
    {accessor accessor' : Accessor} (h : accessor.Matches id accessor') (memory memory' : Unit) :
    TwinSaid
      (sayNested (plan.context bundle locale) memory accessor (accessor.effectiveLocale locale))
      (sayNested (plan'.context bundle' locale) memory' accessor' (accessor'.effectiveLocale locale)) := by
  intro initializer initializer' hsaid hsaid'
  obtain rfl := Except.ok.inj hsaid
  obtain rfl := Except.ok.inj hsaid'
  have hpath := isPath_nestedPath hnamed h.named
  have hlocale : accessor'.effectiveLocale locale = accessor.effectiveLocale locale := by
    rw [Accessor.effectiveLocale, Accessor.effectiveLocale, h.alike.locale]
  rw [hlocale, ← h.alike.kind, ← nestedPath_eq hplan]
  exact ⟨_, _, .bare, .bare, not_prefix_path hpath, not_prefix_path hpath, Implementation.twinExpression_path hpath⟩

structure TwinAnswer (answer answer' : Answer) : Prop where
  kind : answer.kind = answer'.kind
  name : answer.accessor.name = answer'.accessor.name
  said : TwinSaid answer.result answer'.result

theorem twin_answers {kind : GeneratorKind} {served served' : List Accessor} {context context' : Context}
    {say : Context → kind.generator.Memory → Accessor → Option String → Except ResourceError String}
    (hrecites : Recites kind.generator say) {memory memory' : kind.generator.Memory}
    (haccessors : List.Forall₂ (Accessor.Matches kind.id) served served')
    (hsaid : ∀ accessor accessor', accessor.Matches kind.id accessor' →
      TwinSaid (say context memory accessor (accessor.effectiveLocale context.locale))
        (say context' memory' accessor' (accessor'.effectiveLocale context'.locale)))
    (session session' : Session) :
    List.Forall₂ TwinAnswer (answersEach context session ⟨kind, memory, served⟩ served).2.2
      (answersEach context' session' ⟨kind, memory', served'⟩ served').2.2 := by
  rw [answersEach_eq_map context hrecites, answersEach_eq_map context' hrecites, List.forall₂_map_left_iff,
    List.forall₂_map_right_iff]
  exact haccessors.imp fun accessor accessor' hmatch => ⟨rfl, hmatch.alike.name, hsaid accessor accessor' hmatch⟩

theorem twin_answersEach (hplan : plan.Alike plan') (hnamed : plan.Named bundle locale) {running running' : Running}
    (h : TwinRunning running running') (session session' : Session) :
    List.Forall₂ TwinAnswer (answersEach (plan.context bundle locale) session running running.accessors).2.2
      (answersEach (plan'.context bundle' locale) session' running' running'.accessors).2.2 := by
  cases h with
  | text haccessors memory memory' =>
    exact @twin_answers .text _ _ _ _ sayText recites_text memory memory' haccessors
      (fun _ _ hmatch => twin_sayText hmatch.alike.name memory memory') session session'
  | @data _ _ haccessors memory memory' hspelling hspelling' =>
    exact @twin_answers .data _ _ _ _ sayData recites_data memory memory' haccessors
      (fun _ _ hmatch => twin_sayData hmatch.alike.name hspelling hspelling') session session'
  | @image _ _ haccessors memory memory' htables =>
    exact @twin_answers .image _ _ _ _ Generator.sayImage recites_image memory memory' haccessors
      (fun _ _ hmatch => twin_sayImage hmatch.alike.name htables) session session'
  | bundle haccessors =>
    exact @twin_answers .bundle _ _ _ _ sayNested recites_nested () () haccessors
      (fun _ _ hmatch => twin_sayNested hplan hnamed hmatch () ()) session session'

theorem twin_answersAll (hplan : plan.Alike plan') (hnamed : plan.Named bundle locale)
    {generators generators' : List Running} (h : List.Forall₂ TwinRunning generators generators')
    (session session' : Session) :
    List.Forall₂ TwinAnswer (answersAll (plan.context bundle locale) session generators).2.2
      (answersAll (plan'.context bundle' locale) session' generators').2.2 := by
  induction h generalizing session session' with
  | nil => exact .nil
  | @cons running running' rest rest' hrunning _ ih =>
    rw [answersAll, answersAll]
    exact List.rel_append (twin_answersEach hplan hnamed hrunning _ _) (ih _ _)

end

end BundleForge.Pass
