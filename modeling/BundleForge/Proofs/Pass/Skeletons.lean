import BundleForge.Proofs.Implementation.Assemblies
import BundleForge.Proofs.Pass.TwinAnswers
/-!
# Skeletons of sources

The skeleton of a source is what remains of it without comments and with one place for each expression that spells a
text. Which resources a pass finds for texts and data, and how it deploys them, does not show in the skeleton: two
passes that are alike in everything else commit sources with the same one. So no character of a resource, of its
origin, of a URL or of a MIME type is read as code, and none closes a literal or a comment.
-/

namespace BundleForge.Pass

open Lexical

variable {registry registry' : FieldRegistry}

/-! ### Putting together -/

/-- Expressions that are assigned to one accessor in two passes. -/
structure TwinAssignment (assignment assignment' : Assignment) : Prop where
  expression : ∃ expression expression',
    TwinText assignment.expression assignment'.expression expression expression'
  isPrototype : assignment.isPrototype = assignment'.isPrototype

theorem twin_foldl_take {answers answers' : List Answer} (h : List.Forall₂ TwinAnswer answers answers')
    (hok : ∀ answer ∈ answers, ∃ expression, answer.result = .ok expression)
    (hok' : ∀ answer ∈ answers', ∃ expression, answer.result = .ok expression)
    {assignments assignments' : Assignments} (hassignments : assignments.Alike TwinAssignment assignments') :
    (answers.foldl take assignments).Alike TwinAssignment (answers'.foldl take assignments') := by
  induction h generalizing assignments assignments' with
  | nil => exact hassignments
  | @cons answer answer' rest rest' hanswer _ ih =>
    rw [List.forall_mem_cons] at hok hok'
    obtain ⟨⟨expression, hresult⟩, hrest⟩ := hok
    obtain ⟨⟨expression', hresult'⟩, hrest'⟩ := hok'
    rw [List.foldl_cons, List.foldl_cons]
    apply ih hrest hrest'
    rw [take, take, hresult, hresult', ← hanswer.name, ← hanswer.kind]
    exact hassignments.insert _ ⟨hanswer.said _ _ hresult hresult', rfl⟩

theorem twin_joinCode {pairs pairs' : List (Accessor × String)}
    (h : List.Forall₂ (fun pair pair' => pair.1.Alike pair'.1 ∧ pair.2 = pair'.2) pairs pairs')
    {assignments assignments' : Assignments} (hassignments : assignments.Alike TwinAssignment assignments') :
    List.Forall₂ TwinCode (joinCode assignments pairs) (joinCode assignments' pairs') := by
  induction h generalizing assignments assignments' with
  | nil => exact .nil
  | @cons pair pair' rest rest' hpair _ ih =>
    obtain ⟨accessor, slot⟩ := pair
    obtain ⟨accessor', slot'⟩ := pair'
    obtain ⟨halike, rfl⟩ := hpair
    dsimp only at halike
    have hget := hassignments.get? accessor.name
    rw [joinCode, joinCode, ← halike.name]
    generalize assignments.get? accessor.name = found at hget ⊢
    generalize assignments'.get? accessor.name = found' at hget ⊢
    cases hget with
    | none => exact ih hassignments
    | some hassignment =>
      exact .cons ⟨halike, rfl, hassignment.isPrototype, hassignment.expression⟩
        (ih (hassignments.erase accessor.name))

theorem isPath_identFor_slotRequest {accessor : Accessor} (h : accessor.Named) (registry : FieldRegistry) :
    IsPath (registry.identFor (slotRequest accessor)).toList :=
  FieldRegistry.isPath_identFor h.name registry

theorem isPath_of_mem_defineSlots {accessors : List Accessor} (h : ∀ accessor ∈ accessors, accessor.Named)
    {registry : FieldRegistry} {slot : String} (hslot : slot ∈ (defineSlots registry accessors).1) :
    IsPath slot.toList := by
  induction accessors generalizing registry with
  | nil => exact absurd hslot List.not_mem_nil
  | cons accessor rest ih =>
    rw [List.forall_mem_cons] at h
    rcases List.mem_cons.1 hslot with rfl | hrest
    · exact isPath_identFor_slotRequest h.1 registry
    · exact ih h.2 hrest

theorem twin_defineSlots {accessors accessors' : List Accessor}
    (h : List.Forall₂ (fun accessor accessor' => accessor.Named ∧ accessor.Alike accessor') accessors accessors')
    (hfields : TwinFields registry registry') :
    (defineSlots registry accessors).1 = (defineSlots registry' accessors').1 ∧
    TwinFields (defineSlots registry accessors).2 (defineSlots registry' accessors').2 := by
  induction h generalizing registry registry' with
  | nil => exact ⟨rfl, hfields⟩
  | @cons accessor accessor' rest rest' haccessor _ ih =>
    obtain ⟨hnamed, halike⟩ := haccessor
    have hrequest : slotRequest accessor' = slotRequest accessor := by
      rw [slotRequest, slotRequest, halike.kind, halike.name]
    have hident : registry.identFor (slotRequest accessor) = registry'.identFor (slotRequest accessor) :=
      hfields.identFor_eq rfl rfl
    have htype : Piece (Implementation.slotType accessor.kind) :=
      (Piece.append (by decide) (Implementation.isPath_pathInside hnamed.kind).piece).append (by decide)
    have hnext : TwinFields (registry.define (slotRequest accessor)) (registry'.define (slotRequest accessor)) := by
      apply hfields.define
      rw [← hident]
      exact .slot (isPath_identFor_slotRequest hnamed registry) htype true
    obtain ⟨hslots, hlast⟩ := ih hnext
    rw [defineSlots, defineSlots, hrequest]
    exact ⟨List.cons_eq_cons.2 ⟨hident, hslots⟩, hlast⟩

/-! ### Assemblies -/

section

variable {plan plan' : Plan} {bundle bundle' : Bundle} {locale : Option String}

theorem implemented_eq (hplan : plan.Alike plan') (hname : bundle.name = bundle'.name) :
    implemented plan bundle = implemented plan' bundle' := by
  rw [implemented, implemented, hplan.hierarchy, hname]
  congr 1
  funext ty
  have hnested := hplan.bundles ty
  rw [OrderedMap.contains, OrderedMap.contains]
  generalize plan.bundles.get? ty = found at hnested ⊢
  generalize plan'.bundles.get? ty = found' at hnested ⊢
  cases hnested with
  | some _ => rfl
  | none => rfl

theorem twin_defined {session session' : Session} {tasks tasks' : List Task}
    (h : List.Forall₂ TwinRunning (prepareAll (plan.context bundle locale) session tasks).2.1
      (prepareAll (plan'.context bundle' locale) session' tasks').2.1) :
    List.Forall₂ TwinRunning (defined plan bundle locale session tasks).2.2.1
      (defined plan' bundle' locale session' tasks').2.2.1 ∧
    TwinFields (defined plan bundle locale session tasks).2.1 (defined plan' bundle' locale session' tasks').2.1 := by
  have hempty : TwinFields .empty .empty := .nil
  exact twin_createFields h hempty _ _

theorem twin_assembly (hplan : plan.Alike plan') (hbundle : bundle.Alike plan bundle')
    (hnamed : plan.Named bundle locale) {session session' : Session} {tasks tasks' : List Task}
    (hrunning : List.Forall₂ TwinRunning (prepareAll (plan.context bundle locale) session tasks).2.1
      (prepareAll (plan'.context bundle' locale) session' tasks').2.1)
    (hok : ∀ answer ∈ answersOf plan bundle locale session tasks, ∃ expression, answer.result = .ok expression)
    (hok' : ∀ answer ∈ answersOf plan' bundle' locale session' tasks', ∃ expression,
      answer.result = .ok expression) :
    TwinAssembly (assembly plan bundle locale session tasks) (assembly plan' bundle' locale session' tasks') := by
  have haccessors : List.Forall₂ (fun accessor accessor' => accessor.Named ∧ accessor.Alike accessor')
      bundle.accessors bundle'.accessors :=
    (List.forall₂_and_left _ _).2 ⟨hnamed.accessor_named, hbundle.accessors.imp fun _ _ h => h.1⟩
  obtain ⟨hdefined, hfields⟩ := twin_defined hrunning
  obtain ⟨hslots, hlast⟩ := twin_defineSlots haccessors hfields
  have hanswers : List.Forall₂ TwinAnswer (answersOf plan bundle locale session tasks)
      (answersOf plan' bundle' locale session' tasks') := twin_answersAll hplan hnamed hdefined _ _
  have hassignments := twin_foldl_take hanswers hok hok' OrderedMap.alike_empty
  exact {
    bundle := hbundle.name
    simpleName := by
      show bundle.implementation locale = bundle'.implementation locale
      rw [Bundle.implementation, Bundle.implementation, hbundle.name, hbundle.enclosing]
    locale := rfl
    supertypes := implemented_eq hplan hbundle.name
    fields := hlast
    accessors := by
      refine twin_joinCode ?_ hassignments
      rw [hslots]
      exact Implementation.forall₂_zip (haccessors.imp fun _ _ h => h.2) _ }

/-- All names in what a pass puts together are among those that it may write. -/
theorem named_assembly (hnamed : plan.Named bundle locale) (session : Session) (tasks : List Task) :
    (assembly plan bundle locale session tasks).Named where
  bundle := hnamed.bundle_named.name
  simpleName := Bundle.isPath_implementationName hnamed.bundle_named.enclosing
    (TypeName.isPath_simpleName hnamed.bundle_named.name) hnamed.locale_path
  locale := hnamed.locale_path
  supertypes := by
    intro ty hty
    have hcontains := (List.mem_filter.1 hty).2
    obtain ⟨nested, hnested⟩ := OrderedMap.mem_keys_iff.1 (OrderedMap.contains_iff.1 hcontains)
    exact (hnamed.nested_named ty nested hnested).1
  accessors := by
    intro code hcode
    obtain ⟨haccessor, hslot⟩ := List.of_mem_zip (mem_of_mem_joinCode hcode)
    exact ⟨hnamed.accessor_named _ haccessor, isPath_of_mem_defineSlots hnamed.accessor_named hslot⟩

variable {σ σ' : Type} [Sink σ] [Sink σ']

structure HandsOver (plan : Plan) (bundle : Bundle) (locale : Option String) (world : World σ) (source : String) :
    Prop where
  made : (worked plan bundle locale world).result = .ok source
  committed : Commits plan bundle locale world source

/-- Content cannot become code. Of two passes for versions of one bundle, which both generate their type and find
the same images, the sources have the same skeleton: what else they find and where, where they deploy it, which MIME
types are declared, and whether data may be embedded and comments are written, shows in comments and in the texts
that expressions spell, and nowhere else. -/
theorem sameSkeleton_of_generated {world : World σ} {world' : World σ'} (hplan : plan.Alike plan')
    (hbundle : bundle.Alike plan bundle') (hnamed : plan.Named bundle locale)
    (hbuiltIn : plan.registry.BuiltIn)
    (himages : SameImages (plan.context bundle locale) (plan'.context bundle' locale)
      (handlings plan bundle locale world) (handlings plan' bundle' locale world'))
    {type type' : GeneratedType} (hrun : (run plan bundle locale world).result = .generated type)
    (hrun' : (run plan' bundle' locale world').result = .generated type') :
    ∃ source source', HandsOver plan bundle locale world source ∧ HandsOver plan' bundle' locale world' source' ∧
      SameSkeleton source source' := by
  obtain ⟨-, source, hsource, hcommits⟩ := run_generated hrun
  obtain ⟨-, source', hsource', hcommits'⟩ := run_generated hrun'
  obtain ⟨hclean, hok, hmade⟩ := work_ok hsource
  obtain ⟨hclean', hok', hmade'⟩ := work_ok hsource'
  rw [handlings_of_generated hrun, handlings_of_generated hrun'] at himages
  have hrunning := twin_prepareAll (twin_tasksOf hplan hbundle hnamed.accessor_named) hbuiltIn.kind_mem hclean
    hclean' himages
  have htwin := twin_assembly hplan hbundle hnamed hrunning hok hok'
  refine ⟨source, source', ⟨hsource, hcommits⟩, ⟨hsource', hcommits'⟩, ?_⟩
  rw [hmade, hmade']
  exact htwin.sameSkeleton (named_assembly hnamed _ _)

end

/-- An image that is shown in another size. -/
def emblemAccessor : Accessor :=
  { name := "emblem", kind := .imageResource, source := some ["emblem.gif"], width := some 32 }

def notice (mimeType : String) (embed : Bool) : Bundle where
  name := ⟨"crate::Notice"⟩
  accessors :=
    [{ name := "motto", kind := .textResource, source := some ["motto.txt"] },
     { name := "blob", kind := .dataResource, source := some ["blob.bin"], mimeType := some mimeType, embed },
     { emblemAccessor with name := "emblem" }]

def noticePlan (urlPrefix : String) (stripComments : Bool) : Plan :=
  { hierarchy := .builtin, bundles := .empty, deployment := .external ⟨"/public"⟩ urlPrefix, stripComments }

def noticeWorld (motto : String) (blob : Bytes) : World MemorySink where
  files := .empty
  finder := ((({} : Finder).embed "motto.txt" (Bytes.ascii motto)).embed "blob.bin" blob).embed "emblem.gif"
    emblemBytes
  sink := {}

/-- The second text, MIME type and prefix would end their literals. -/
theorem sameSkeleton_notice :
    let first := noticePlan "/assets/" false
    let second := noticePlan "\");//" true
    let plain := notice "text/plain" true
    let marked := notice "\"; mod evil" false
    let world := noticeWorld "Stay calm." [0, 1]
    let other := noticeWorld "\");\n// \\\"#" [255]
    ∃ source source', HandsOver first plain none world source ∧ HandsOver second marked none other source' ∧
      SameSkeleton source source' := by
  intro first second plain marked world other
  have hplan : first.Alike second := ⟨rfl, rfl, fun ty => .none⟩
  have hblob : Dispatch.idFor first.registry first.hierarchy
      { name := "blob", kind := .dataResource, source := some ["blob.bin"], mimeType := some "text/plain" } ≠
        some GeneratorKind.image.id := by decide +kernel
  have hbundle : plain.Alike first marked :=
    ⟨rfl, rfl, .cons ⟨⟨rfl, rfl, rfl, rfl, rfl, rfl⟩, fun _ => rfl⟩
      (.cons ⟨⟨rfl, rfl, rfl, rfl, rfl, rfl⟩, fun hid => absurd hid hblob⟩
        (.cons ⟨⟨rfl, rfl, rfl, rfl, rfl, rfl⟩, fun _ => rfl⟩ .nil))⟩
  have haccessors : ∀ accessor ∈ plain.accessors, IsPath accessor.name.toList ∧ IsPath accessor.kind.path.toList ∧
      accessor.locale = none ∧ accessor.owner = none := by decide
  have hnamed : first.Named plain none := by
    refine ⟨⟨by decide, by decide⟩, by simp, fun accessor hmem => ?_, fun ty nested hnested => ?_⟩
    · obtain ⟨hname, hkind, hlocale, howner⟩ := haccessors accessor hmem
      exact ⟨hname, hkind, by simp [hlocale], by simp [howner]⟩
    · exact absurd hnested (by simp [first, noticePlan])
  have hfound : ∀ pair ∈ (handlings first plain none world).zip (handlings second marked none other),
      pair.1.running.id = GeneratorKind.image.id →
      (pair.1.session.resolve (first.context plain none) pair.1.accessor
        (pair.1.accessor.effectiveLocale none)).1 = .ok ⟨"embedded:emblem.gif", "emblem.gif", emblemBytes⟩ ∧
      (pair.2.session.resolve (second.context marked none) pair.2.accessor
        (pair.2.accessor.effectiveLocale none)).1 = .ok ⟨"embedded:emblem.gif", "emblem.gif", emblemBytes⟩ := by
    decide +kernel
  have himages : SameImages (first.context plain none) (second.context marked none)
      (handlings first plain none world) (handlings second marked none other) := by
    intro pair hpair himage resource resource' hresource hresource'
    obtain ⟨hemblem, hemblem'⟩ := hfound pair hpair (congrArg GeneratorKind.id himage)
    obtain rfl := Except.ok.inj (hresource.symm.trans hemblem)
    exact (Except.ok.inj (hresource'.symm.trans hemblem')).symm
  have hrun : (run first plain none world).result =
      .generated ⟨⟨"crate::Notice"⟩, none, "crate::NoticeImpl", none⟩ := by decide +kernel
  have hrun' : (run second marked none other).result =
      .generated ⟨⟨"crate::Notice"⟩, none, "crate::NoticeImpl", none⟩ := by decide +kernel
  exact sameSkeleton_of_generated hplan hbundle hnamed Registry.builtIn_standard himages hrun hrun'

end BundleForge.Pass
