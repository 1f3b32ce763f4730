import BundleForge.Proofs.Implementation.Distinct
import BundleForge.Proofs.Pass.Wiring
import Mathlib
/-!
# The fields of a generated type

The fields of a module come from the generators of the pass, one after the other, and then from the accessors, each of
which asks for its slot. A module declares one item for every request and a holder for every accessor, and whatever the
names are that were asked for, no two of its items share a name.
-/

namespace BundleForge

/-- Every request has been answered with a static or with a field of the implementing type. -/
def Implementation.Declares (implementation : Implementation) (requests : List FieldRequest) : Prop :=
  ∃ fields : List Field, List.Forall₂ Field.Answers fields requests ∧
    implementation.statics =
      fixedStatics implementation.simpleName ++ (fields.filter (·.isStatic)).map staticMember ∧
    implementation.fields = (fields.filter (!·.isStatic)).map instanceMember

namespace Implementation

variable {assembly : Assembly}

theorem declares_ofAssembly {requests : List FieldRequest}
    (hfields : assembly.fields = FieldRegistry.empty.defineAll requests) :
    (ofAssembly assembly).Declares requests := by
  obtain ⟨fields, hanswers, heq⟩ := FieldRegistry.empty.fields_defineAll requests
  have hall : assembly.fields.fields = fields := by rw [hfields, heq, FieldRegistry.fields_empty, List.nil_append]
  refine ⟨fields, hanswers, ?_, ?_⟩
  · show fixedStatics _ ++ assembly.fields.statics.map staticMember = _
    rw [FieldRegistry.statics, hall]
    rfl
  · show assembly.fields.instanceFields.map instanceMember = _
    rw [FieldRegistry.instanceFields, hall]

end Implementation

namespace Pass

/-- The requests that generators make when they are asked for their fields. -/
def fieldRequests (context : Context) (session : Session) (registry : FieldRegistry) :
    List Running → List FieldRequest
  | [] => []
  | running :: rest =>
    let program :=
      running.kind.generator.createFields registry context (session.select running.id) running.memory
    let ((_, next, _), later) := program.run registry
    program.requests registry ++ fieldRequests context next later rest

theorem fields_createFields (context : Context) (session : Session) (registry : FieldRegistry)
    (generators : List Running) :
    (createFields context session registry generators).2.1 =
      registry.defineAll (fieldRequests context session registry generators) := by
  induction generators generalizing session registry with
  | nil => rfl
  | cons running rest ih =>
    rw [createFields, fieldRequests, FieldRegistry.defineAll_append, ← FieldProgram.run_snd]
    exact ih _ _

theorem registry_defineSlots (registry : FieldRegistry) (accessors : List Accessor) :
    (defineSlots registry accessors).2 = registry.defineAll (accessors.map slotRequest) := by
  induction accessors generalizing registry with
  | nil => rfl
  | cons accessor rest ih => exact ih _

section

variable (plan : Plan) (bundle : Bundle) (locale : Option String) (session : Session) (tasks : List Task)

/-- What the generators of some tasks ask for in a pass. -/
def requestsOf : List FieldRequest :=
  fieldRequests (plan.context bundle locale) (prepared plan bundle locale session tasks).1 .empty
    (prepared plan bundle locale session tasks).2.1

theorem fields_assembly : (assembly plan bundle locale session tasks).fields =
    FieldRegistry.empty.defineAll
      (requestsOf plan bundle locale session tasks ++ bundle.accessors.map slotRequest) := by
  rw [FieldRegistry.defineAll_append, requestsOf, ← fields_createFields, ← registry_defineSlots]
  rfl

end

variable {plan : Plan} {bundle : Bundle} {locale : Option String} {σ : Type} {world : World σ} [Sink σ]

/-- The module that a successful pass commits has an item for each field that was asked for and for each accessor, and
different items have different names. -/
theorem distinct_of_generated {type : GeneratedType} (hnames : (bundle.accessors.map (·.name)).Nodup)
    (hrun : (run plan bundle locale world).result = .generated type) :
    Commits plan bundle locale world (moduleOf plan bundle locale world).source ∧
    (moduleOf plan bundle locale world).Written (moduleOf plan bundle locale world).source.toList ∧
    (moduleOf plan bundle locale world).Declares
      (requestsOf plan bundle locale (opening world) (tasksOf plan bundle) ++
        bundle.accessors.map slotRequest) ∧
    (moduleOf plan bundle locale world).holders.map (·.accessor) = bundle.accessors.map (·.name) ∧
    (moduleOf plan bundle locale world).Distinct := by
  have hfields := fields_assembly plan bundle locale (opening world) (tasksOf plan bundle)
  obtain ⟨hrefused, source, hwork, -⟩ := run_generated hrun
  obtain ⟨answer, expression, hanswered⟩ := exists_answers hrefused hwork hnames
  obtain ⟨slot, -, haccessors, -⟩ := exists_accessors_assembly hnames hanswered
  have hcodes : (assembly plan bundle locale (opening world) (tasksOf plan bundle)).accessors.map
      (·.accessor.name) = bundle.accessors.map (·.name) := by
    rw [haccessors, List.map_map]
    rfl
  refine ⟨commits_assembly hrun, Implementation.written_source _,
    Implementation.declares_ofAssembly hfields, ?_, Implementation.distinct_ofAssembly hfields ?_⟩
  · rw [moduleOf, Implementation.map_accessor_holders, hcodes]
  · rw [hcodes]
    exact hnames

/-- A generator that asks for fields under names that are taken, or that leave nothing of themselves. -/
def crowding : Generator where
  Memory := Unit
  fresh := ()
  createFields _ _ session memory := do
    let _ ← FieldProgram.request ⟨"u8", "mainLogo", some "1", true, true⟩
    let _ ← FieldProgram.request ⟨"u8", "resource-map", some "2", true, true⟩
    let _ ← FieldProgram.request ⟨"u8", "__", some "3", false, true⟩
    let _ ← FieldProgram.request ⟨"u8", "field", some "4", false, true⟩
    return (.ok (), session, memory)
  createAssignment _ _ _ session memory := (.ok "()", session, memory)

def crowdedPlan : Plan :=
  { hierarchy := .builtin, bundles := .empty
    registry := Registry.standard.register .textResource ⟨⟨"crowding"⟩, crowding⟩ }

def crowded : Bundle where
  name := ⟨"crate::Crowded"⟩
  accessors := [{ name := "main_logo", kind := .textResource }, { name := "mainLogo", kind := .textResource }]

theorem distinct_crowded : (moduleOf crowdedPlan crowded none pageWorld).statics.map (·.ident) =
      ["_INSTANCE0", "RESOURCE_MAP", "MAIN_LOGO", "RESOURCE_MAP_0", "MAIN_LOGO_0", "MAIN_LOGO_1"] ∧
    (moduleOf crowdedPlan crowded none pageWorld).fields.map (·.ident) = ["field", "field_0"] ∧
    (moduleOf crowdedPlan crowded none pageWorld).holders.map (·.name) =
      ["MainLogoInitializer", "MainLogoInitializer0"] ∧
    (moduleOf crowdedPlan crowded none pageWorld).Distinct := by
  have hrun : (run crowdedPlan crowded none pageWorld).result =
      .generated ⟨⟨"crate::Crowded"⟩, none, "crate::CrowdedImpl", none⟩ := by decide +kernel
  obtain ⟨-, -, -, -, hdistinct⟩ := distinct_of_generated (by decide) hrun
  exact ⟨by decide +kernel, by decide +kernel, by decide +kernel, hdistinct⟩

end Pass

end BundleForge
