import BundleForge.Proofs.Implementation.Parts
import BundleForge.Proofs.Pass.Success
/-!
# The wiring of a generated type

Accessors are served generator by generator, their expressions are collected by name, their slots and
holders are chosen one after the other, and all of this is joined again by position. When the names of
the accessors differ nothing is mixed up: the module that a successful pass commits has, for every
accessor, the wiring that its own generator's answer calls for.
-/

namespace BundleForge.Pass

open Implementation (Wires slotField)

variable {plan : Plan} {bundle : Bundle} {locale : Option String}

/-- The only answer given for an accessor in a pass, by the generator that serves it. -/
structure Answered (plan : Plan) (bundle : Bundle) (locale : Option String) (session : Session)
    (accessor : Accessor) (answer : Answer) (expression : String) : Prop where
  only : (answersOf plan bundle locale session (tasksOf plan bundle)).filter
    (·.accessor.name = accessor.name) = [answer]
  subject : answer.accessor = accessor
  served : Dispatch.idFor plan.registry plan.hierarchy accessor = some answer.kind.id
  result : answer.result = .ok expression

theorem Answered.expression_eq {session : Session} {accessor : Accessor} {answer : Answer} {expression text : String}
    (h : Answered plan bundle locale session accessor answer expression) {kind : GeneratorKind}
    (hsaid : ⟨kind, accessor, .ok text⟩ ∈ answersOf plan bundle locale session (tasksOf plan bundle)) :
    expression = text := by
  have hsame : ⟨kind, accessor, .ok text⟩ ∈ (answersOf plan bundle locale session (tasksOf plan bundle)).filter
      (·.accessor.name = accessor.name) := List.mem_filter.2 ⟨hsaid, decide_eq_true rfl⟩
  rw [h.only, List.mem_singleton] at hsame
  have hresult := h.result
  rw [← hsame] at hresult
  exact (Except.ok.inj hresult).symm

variable {σ : Type} {world : World σ}

theorem exists_answered
    (hrefused : (Dispatch.ofBundle plan.registry plan.hierarchy bundle).refused = [])
    {source : String} (hwork : (worked plan bundle locale world).result = .ok source)
    {accessor : Accessor} (honly : bundle.accessors.filter (·.name = accessor.name) = [accessor]) :
    ∃ answer expression, Answered plan bundle locale (opening world) accessor answer expression := by
  obtain ⟨answer, hanswer, haccessor, -, hid⟩ :=
    filter_answersOf locale (opening world) hrefused honly
  have hmem : answer ∈ answersOf plan bundle locale (opening world) (tasksOf plan bundle) :=
    List.mem_of_mem_filter (hanswer ▸ List.mem_singleton_self answer)
  obtain ⟨expression, hexpression⟩ := (work_ok hwork).2.1 answer hmem
  exact ⟨answer, expression, hanswer, haccessor, hid, hexpression⟩

theorem exists_answers
    (hrefused : (Dispatch.ofBundle plan.registry plan.hierarchy bundle).refused = [])
    {source : String} (hwork : (worked plan bundle locale world).result = .ok source)
    (hnames : (bundle.accessors.map (·.name)).Nodup) :
    ∃ (answer : Accessor → Answer) (expression : Accessor → String),
      ∀ accessor ∈ bundle.accessors, Answered plan bundle locale (opening world) accessor
        (answer accessor) (expression accessor) := by
  have hexists : ∀ accessor, ∃ answer expression, accessor ∈ bundle.accessors →
      Answered plan bundle locale (opening world) accessor answer expression := by
    intro accessor
    by_cases hmem : accessor ∈ bundle.accessors
    · obtain ⟨answer, expression, h⟩ :=
        exists_answered hrefused hwork (filter_eq_singleton hnames hmem)
      exact ⟨answer, expression, fun _ => h⟩
    · exact ⟨⟨plan.registry.nested, accessor, .ok ""⟩, "", fun h => absurd h hmem⟩
  -- Accessors of other bundles have a placeholder, so that there is one function for all.
  choose answer expression hanswered using hexists
  exact ⟨answer, expression, hanswered⟩

/-- What a pass knows of an accessor once its generator has answered. -/
def codeFor (slot : Accessor → String) (answer : Accessor → Answer) (expression : Accessor → String)
    (accessor : Accessor) : AccessorCode :=
  ⟨accessor, slot accessor, expression accessor, (answer accessor).kind.generator.producesPrototype⟩

/-- The accessors of the assembly are those of the bundle, each with a slot of its own among the fields
and with what its generator answered. -/
theorem exists_accessors_assembly {session : Session} {answer : Accessor → Answer}
    {expression : Accessor → String} (hnames : (bundle.accessors.map (·.name)).Nodup)
    (hanswered : ∀ accessor ∈ bundle.accessors,
      Answered plan bundle locale session accessor (answer accessor) (expression accessor)) :
    ∃ slot : Accessor → String,
      (bundle.accessors.map slot).Nodup ∧
      (assembly plan bundle locale session (tasksOf plan bundle)).accessors =
        bundle.accessors.map (codeFor slot answer expression) ∧
      ∀ accessor ∈ bundle.accessors, slotField accessor (slot accessor) ∈
        (assembly plan bundle locale session (tasksOf plan bundle)).fields.fields := by
  let registry := (defined plan bundle locale session (tasksOf plan bundle)).2.1
  have hslots : (defineSlots registry bundle.accessors).1.Nodup := nodup_defineSlots _ _
  have hfields := fields_defineSlots registry bundle.accessors
  obtain ⟨slot, hslot⟩ :=
    exists_map_eq hnames.of_map (length_defineSlots registry bundle.accessors)
  rw [hslot] at hslots
  rw [hslot, ← List.map_prod_left_eq_zip, List.map_map] at hfields
  refine ⟨slot, hslots, ?_, fun accessor haccessor => ?_⟩
  · have hpairs : bundle.accessors.zip (defineSlots registry bundle.accessors).1 =
        bundle.accessors.map fun accessor => (accessor, slot accessor) := by
      rw [hslot, List.map_prod_left_eq_zip]
    show joinCode _ (bundle.accessors.zip (defineSlots registry bundle.accessors).1) = _
    rw [hpairs, joinCode_eq_map (fun accessor =>
      ⟨expression accessor, (answer accessor).kind.generator.producesPrototype⟩)]
    · rw [List.map_map]
      rfl
    · rw [List.map_map]
      exact hnames
    · intro pair hpair
      obtain ⟨accessor, haccessor, rfl⟩ := List.mem_map.1 hpair
      have h := hanswered accessor haccessor
      exact get?_foldl_take h.only h.result _
  · show _ ∈ (defineSlots registry bundle.accessors).2.fields
    rw [hfields]
    exact List.mem_append_right _ (List.mem_map_of_mem (f := fun accessor =>
      slotField accessor (slot accessor)) haccessor)

variable [Sink σ]

/-- A module that a pass commits, with the answer each accessor got, and its holder and slot. -/
structure Wiring (plan : Plan) (bundle : Bundle) (locale : Option String) (world : World σ)
    (implementation : Implementation) (answer : Accessor → Answer)
    (expression holder slot : Accessor → String) : Prop where
  commits : Commits plan bundle locale world implementation.source
  written : implementation.Written implementation.source.toList
  answered : ∀ accessor ∈ bundle.accessors,
    Answered plan bundle locale (opening world) accessor (answer accessor) (expression accessor)
  wires : ∀ accessor ∈ bundle.accessors,
    implementation.Wires accessor (accessor.owner.getD bundle.name) (holder accessor) (slot accessor)
      (expression accessor)
  nodup_holders : (bundle.accessors.map holder).Nodup
  nodup_slots : (bundle.accessors.map slot).Nodup
  listed : implementation.listed =
    (bundle.accessors.filter fun accessor =>
      (answer accessor).kind.generator.producesPrototype).map fun accessor =>
        ⟨accessor.name, holder accessor⟩

def moduleOf (plan : Plan) (bundle : Bundle) (locale : Option String) (world : World σ) :
    Implementation :=
  Implementation.ofAssembly (assembly plan bundle locale (opening world) (tasksOf plan bundle))

omit [Sink σ] in
theorem static_of_slot {accessor : Accessor} {slot : String}
    (h : (accessor, slot) ∈ bundle.accessors.zip (defineSlots
      (defined plan bundle locale (opening world) (tasksOf plan bundle)).2.1 bundle.accessors).1) :
    (⟨slot, Implementation.cell (Implementation.slotType accessor.kind), Implementation.emptyCell⟩ : Member) ∈
      (moduleOf plan bundle locale world).statics := by
  have hfield : slotField accessor slot ∈
      (assembly plan bundle locale (opening world) (tasksOf plan bundle)).fields.fields := by
    show _ ∈ (defineSlots _ bundle.accessors).2.fields
    rw [fields_defineSlots]
    exact List.mem_append_right _ (List.mem_map_of_mem h)
  exact List.mem_append_right _ (List.mem_map_of_mem (List.mem_filter.2 ⟨hfield, rfl⟩))

theorem exists_wiring_of_answered {type : GeneratedType} {answer : Accessor → Answer}
    {expression : Accessor → String} (hnames : (bundle.accessors.map (·.name)).Nodup)
    (hrun : (run plan bundle locale world).result = .generated type)
    (hanswered : ∀ accessor ∈ bundle.accessors,
      Answered plan bundle locale (opening world) accessor (answer accessor) (expression accessor)) :
    ∃ holder slot,
      Wiring plan bundle locale world (moduleOf plan bundle locale world) answer expression holder slot := by
  obtain ⟨slot, hslots, haccessors, hfields⟩ := exists_accessors_assembly hnames hanswered
  let parts := assembly plan bundle locale (opening world) (tasksOf plan bundle)
  have hcodes : ∀ {β : Type} (f : AccessorCode → β), parts.accessors.map f =
      bundle.accessors.map fun accessor => f (codeFor slot answer expression accessor) := by
    intro β f
    rw [haccessors, List.map_map]
    rfl
  have hpartNames : (parts.accessors.map (·.accessor.name)).Nodup := by
    rw [hcodes]
    exact hnames
  have hpartSlots : (parts.accessors.map (·.slot)).Nodup := by
    rw [hcodes]
    exact hslots
  have hpartFields : ∀ code ∈ parts.accessors,
      slotField code.accessor code.slot ∈ parts.fields.fields := by
    rw [haccessors, List.forall_mem_map]
    exact hfields
  obtain ⟨holder, hholders, hlisted, hwires⟩ :=
    Implementation.exists_wires hpartNames hpartSlots hpartFields
  rw [haccessors, List.forall_mem_map] at hwires
  rw [hcodes] at hholders
  rw [haccessors, List.filter_map, List.map_map] at hlisted
  exact ⟨fun accessor => holder (codeFor slot answer expression accessor), slot,
    { commits := commits_assembly hrun
      written := Implementation.written_source _
      answered := hanswered
      wires := hwires
      nodup_holders := hholders
      nodup_slots := hslots
      listed := hlisted }⟩

/-- A page with a text of its own, a text it inherits and a nested bundle. -/
def page : Bundle where
  name := ⟨"crate::Page"⟩
  accessors :=
    [{ name := "greeting", kind := .textResource, source := some ["greeting.txt"] },
     { name := "icons", kind := .clientBundle },
     { name := "greeting_", kind := .textResource, source := some ["greeting.txt"],
       owner := some ⟨"crate::Base"⟩ }]

def pagePlan : Plan := { hierarchy := .builtin, bundles := .empty }

def pageWorld : World MemorySink where
  files := .empty
  finder := ({} : Finder).embed "greeting.txt" [104, 105]
  sink := {}

end BundleForge.Pass
