import BundleForge.Proofs.Implementation.Identifiers
import BundleForge.Proofs.Pass.Fields
import BundleForge.Proofs.Pass.Handlings
import BundleForge.Proofs.Pass.Paths
import Mathlib
/-!
# Which names of a generated module are identifiers

The generators that there are ask for no fields but those of images, under a name that is an identifier. The other
names in a module come from its bundle and from the accessors, and these remain identifiers as long as the words of no
accessor begin with a digit: then its slot and its holder would, while the initializer keeps the name as it stands.
-/

namespace BundleForge

open Generator Identifier

/-! ### What the generators ask for -/

namespace Generator

theorem requests_defineImages (images : List (String × DeployedImage)) (registry : FieldRegistry) :
    ∀ request ∈ (defineImages images).requests registry, ∃ url, request = imageField url := by
  induction images generalizing registry with
  | nil => exact fun _ hmem => absurd hmem List.not_mem_nil
  | cons entry rest ih =>
    -- The entry that is put in front of the others asks for nothing more.
    have hothers : ∀ (registry : FieldRegistry) (entry : String × DeployedImage),
        ∀ request ∈ (defineImages rest >>= fun rest => pure (entry :: rest)).requests registry,
          ∃ url, request = imageField url := by
      intro registry entry
      rw [FieldProgram.requests_bind]
      exact List.forall_mem_append.2 ⟨ih registry, fun _ hmem => absurd hmem List.not_mem_nil⟩
    obtain ⟨key, url, field⟩ := entry
    cases field with
    | some ident => exact hothers registry _
    | none => exact List.forall_mem_cons.2 ⟨⟨url, rfl⟩, hothers _ _⟩

end Generator

theorem GeneratorKind.requests_createFields {kind : GeneratorKind} (hkind : kind ∈ builtIn)
    (registry : FieldRegistry) (context : Context) (session : Session) (memory : kind.generator.Memory) :
    ∀ request ∈ (kind.generator.createFields registry context session memory).requests registry,
      ∃ url, request = imageField url := by
  simp only [builtIn, List.mem_cons, List.not_mem_nil, or_false] at hkind
  rcases hkind with rfl | rfl | rfl | rfl
  · exact fun _ hmem => absurd hmem List.not_mem_nil
  · exact fun _ hmem => absurd hmem List.not_mem_nil
  · show ∀ request ∈ (Generator.image.createFields registry context session memory).requests registry, _
    dsimp only [Generator.image]
    split
    · exact fun _ hmem => absurd hmem List.not_mem_nil
    · rw [FieldProgram.requests_bind]
      intro request hmem
      rcases List.mem_append.1 hmem with himages | hdone
      · exact requests_defineImages _ _ request himages
      · exact absurd hdone List.not_mem_nil
  · exact fun _ hmem => absurd hmem List.not_mem_nil

namespace Pass

theorem requests_fieldRequests (context : Context) {generators : List Running}
    (hkinds : ∀ running ∈ generators, running.kind ∈ GeneratorKind.builtIn) (session : Session)
    (registry : FieldRegistry) :
    ∀ request ∈ fieldRequests context session registry generators, ∃ url, request = imageField url := by
  induction generators generalizing session registry with
  | nil => exact fun _ hmem => absurd hmem List.not_mem_nil
  | cons running rest ih =>
    rw [List.forall_mem_cons] at hkinds
    rw [fieldRequests]
    exact List.forall_mem_append.2 ⟨GeneratorKind.requests_createFields hkinds.1 _ _ _ _, ih hkinds.2 _ _⟩

variable {plan : Plan} {bundle : Bundle} {locale : Option String}

theorem requests_requestsOf (hbuiltIn : plan.registry.BuiltIn) (session : Session) :
    ∀ request ∈ requestsOf plan bundle locale session (tasksOf plan bundle), ∃ url, request = imageField url := by
  apply requests_fieldRequests
  intro running hrunning
  have htasks := tasks_prepareAll (plan.context bundle locale) session (tasksOf plan bundle)
  exact hbuiltIn.kind_mem running.task (htasks ▸ List.mem_map_of_mem (f := Running.task) hrunning)

theorem forall₂_defineSlots (registry : FieldRegistry) (accessors : List Accessor) :
    List.Forall₂ (fun accessor slot => ∃ number,
      slot = numbered "_" (FieldRegistry.baseName (slotRequest accessor)) number)
      accessors (defineSlots registry accessors).1 := by
  induction accessors generalizing registry with
  | nil => exact .nil
  | cons accessor rest ih => exact .cons (exists_fresh_eq _ _ _) (ih _)

/-- A slot is an identifier unless the words of its accessor begin with a digit. -/
theorem isValid_slot {registry : FieldRegistry} {accessors : List Accessor} {accessor : Accessor} {slot : String}
    (h : (accessor, slot) ∈ accessors.zip (defineSlots registry accessors).1)
    (hnamed : isValid accessor.name = true) : isValid slot = !isNumeric accessor.name := by
  obtain ⟨number, rfl⟩ := (List.forall₂_iff_zip.1 (forall₂_defineSlots registry accessors)).2 h
  exact FieldRegistry.isValid_numbered_baseName rfl (fits_of_isValid hnamed).body number

section

variable (locale) (hbuiltIn : plan.registry.BuiltIn)
  (hnamed : ∀ accessor ∈ bundle.accessors, isValid accessor.name = true) (session : Session)
include hbuiltIn hnamed

/-- Every field is a static; it is an identifier, or it belongs to an accessor whose words begin with a digit. -/
theorem isValid_fields_assembly :
    ∀ field ∈ (assembly plan bundle locale session (tasksOf plan bundle)).fields.fields,
      field.isStatic = true ∧ (isValid field.ident = true ∨
        ∃ accessor ∈ bundle.accessors, isNumeric accessor.name = true) := by
  intro field hfield
  rw [fields_assembly] at hfield
  obtain ⟨request, hrequest, hanswers⟩ := FieldRegistry.answers_of_mem_defineAll hfield
  obtain ⟨number, hident⟩ := hanswers.ident
  rw [hanswers.isStatic, hident]
  rcases List.mem_append.1 hrequest with himage | hslot
  · obtain ⟨url, rfl⟩ := requests_requestsOf hbuiltIn session request himage
    have hbody : ∀ c ∈ "externalImage".toList, canContinue c = true := by decide
    have hwords : (!isNumeric "externalImage") = true := by decide
    exact ⟨rfl, .inl ((FieldRegistry.isValid_numbered_baseName rfl hbody number).trans hwords)⟩
  · obtain ⟨accessor, haccessor, rfl⟩ := List.mem_map.1 hslot
    refine ⟨rfl, ?_⟩
    rw [FieldRegistry.isValid_numbered_baseName rfl (fits_of_isValid (hnamed accessor haccessor)).body number]
    cases hnumeric : isNumeric (slotRequest accessor).name with
    | false => exact .inl rfl
    | true => exact .inr ⟨accessor, haccessor, hnumeric⟩

end

variable {σ : Type} {world : World σ}

/-- The slot of an accessor is one of the statics, and an identifier unless the words of the accessor begin with a
digit. -/
theorem exists_slot (plan : Plan) (locale : Option String) (world : World σ) {accessor : Accessor}
    (h : accessor ∈ bundle.accessors) (hnamed : isValid accessor.name = true) :
    ∃ slot ∈ (moduleOf plan bundle locale world).statics.map (·.ident), isValid slot = !isNumeric accessor.name := by
  let registry := (defined plan bundle locale (opening world) (tasksOf plan bundle)).2.1
  rw [← List.map_fst_zip (Nat.le_of_eq (length_defineSlots registry bundle.accessors).symm)] at h
  obtain ⟨⟨accessor, slot⟩, hpair, rfl⟩ := List.mem_map.1 h
  exact ⟨slot, List.mem_map_of_mem (f := (·.ident)) (static_of_slot hpair), isValid_slot hpair hnamed⟩

section

variable (hnamed : ∀ accessor ∈ bundle.accessors, isValid accessor.name = true)
include hnamed

theorem isValid_slots : ∀ initializer ∈ (moduleOf plan bundle locale world).initializers,
    isValid (initializer.accessor ++ "_initializer") = true ∧
      isValid initializer.slot = !isNumeric initializer.accessor := by
  intro initializer hinitializer
  obtain ⟨code, hcode, rfl⟩ := List.mem_map.1 hinitializer
  have hvalid := hnamed _ (accessor_of_code hcode).1
  exact ⟨Implementation.isValid_initializer hvalid, isValid_slot (mem_of_mem_joinCode hcode) hvalid⟩

theorem isValid_holders : ∀ holder ∈ (moduleOf plan bundle locale world).holders,
    isValid holder.name = !isNumeric holder.accessor :=
  Implementation.isValid_holders fun _ hcode => (fits_of_isValid (hnamed _ (accessor_of_code hcode).1)).body

/-- All names are identifiers if that of the implementation is and the words of no accessor begin with a digit. -/
theorem isValid_introduced (hbuiltIn : plan.registry.BuiltIn)
    (himplementation : isValid (bundle.implementation locale) = true)
    (hwords : ∀ accessor ∈ bundle.accessors, isNumeric accessor.name = false) :
    ∀ name ∈ (moduleOf plan bundle locale world).introduced, isValid name = true := by
  have hfields := isValid_fields_assembly locale hbuiltIn hnamed (opening world)
  rw [Implementation.introduced, List.forall_mem_cons, List.forall_mem_cons, List.forall_mem_append,
    List.forall_mem_append, List.forall_mem_append]
  refine ⟨Implementation.isValid_moduleName (fits_of_isValid himplementation).body, himplementation,
    ⟨⟨?statics, ?fields⟩, ?holders⟩, ?initializers⟩
  case statics =>
    refine List.forall_mem_map.2 fun member hmember => ?_
    rcases List.mem_append.1 hmember with hfixed | hdefined
    · have hreserved : ∀ ident ∈ reservedIdents, isValid ident = true := by decide
      exact hreserved _ (List.mem_map_of_mem (f := (·.ident)) hfixed)
    · obtain ⟨field, hfield, rfl⟩ := List.mem_map.1 hdefined
      rw [Implementation.ident_staticMember]
      refine (hfields field (List.mem_of_mem_filter hfield)).2.resolve_right ?_
      rintro ⟨accessor, haccessor, hnumeric⟩
      rw [hwords accessor haccessor] at hnumeric
      exact Bool.false_ne_true hnumeric
  case fields =>
    refine List.forall_mem_map.2 fun member hmember => ?_
    obtain ⟨field, hfield, rfl⟩ := List.mem_map.1 hmember
    obtain ⟨hmem, hinstance⟩ := List.mem_filter.1 hfield
    rw [(hfields field hmem).1] at hinstance
    exact absurd hinstance Bool.false_ne_true
  case holders =>
    refine List.forall_mem_map.2 fun holder hholder => ?_
    obtain ⟨entry, hentry, rfl⟩ := List.mem_map.1 hholder
    rw [isValid_holders hnamed _ hholder, hwords _ (accessor_of_code (List.of_mem_zip hentry).1).1, Bool.not_false]
  case initializers =>
    exact List.forall_mem_map.2 fun initializer hinitializer => (isValid_slots hnamed initializer hinitializer).1

end

/-- Whether the names of a module are identifiers depends on the name of its bundle and on the words of its accessors:
the slot and the holder of an accessor are, unless its words begin with a digit. -/
theorem isValid_introduced_iff [Sink σ] {type : GeneratedType} (hbuiltIn : plan.registry.BuiltIn)
    (hnamed : ∀ accessor ∈ bundle.accessors, isValid accessor.name = true)
    (hlocale : ∀ text ∈ locale, ∀ c ∈ text.toList, canContinue c = true)
    (hrun : (run plan bundle locale world).result = .generated type) :
    Commits plan bundle locale world (moduleOf plan bundle locale world).source ∧
    (moduleOf plan bundle locale world).Written (moduleOf plan bundle locale world).source.toList ∧
    ((∀ name ∈ (moduleOf plan bundle locale world).introduced, isValid name = true) ↔
      Fits bundle.joinedName ∧ ∀ accessor ∈ bundle.accessors, isNumeric accessor.name = false) ∧
    (∀ initializer ∈ (moduleOf plan bundle locale world).initializers,
      isValid (initializer.accessor ++ "_initializer") = true ∧
        isValid initializer.slot = !isNumeric initializer.accessor) ∧
    ∀ holder ∈ (moduleOf plan bundle locale world).holders, isValid holder.name = !isNumeric holder.accessor := by
  have himplementation := bundle.isValid_implementation_iff hlocale
  refine ⟨commits_assembly hrun, Implementation.written_source _, ⟨fun hall => ?_, fun h => ?_⟩,
    isValid_slots hnamed, isValid_holders hnamed⟩
  · rw [Implementation.introduced, List.forall_mem_cons, List.forall_mem_cons] at hall
    refine ⟨himplementation.1 hall.2.1, fun accessor haccessor => ?_⟩
    obtain ⟨slot, hstatic, hslot⟩ :=
      exists_slot plan locale world haccessor (hnamed accessor haccessor)
    rw [hall.2.2 slot (List.mem_append_left _ (List.mem_append_left _ (List.mem_append_left _ hstatic)))] at hslot
    rw [← Bool.not_eq_true', ← hslot]
  · exact isValid_introduced hnamed hbuiltIn (himplementation.2 h.1) h.2

/-- An accessor that is named by an identifier, whose words begin with a digit. -/
def ordinal : Bundle where
  name := ⟨"crate::Ordinal"⟩
  accessors := [{ name := "_1", kind := .textResource, source := some ["greeting.txt"] }]

theorem isValid_introduced_iff_ordinal :
    isValid "_1" = true ∧ (moduleOf pagePlan ordinal none pageWorld).introduced =
      ["__ordinal_impl", "OrdinalImpl", "_INSTANCE0", "RESOURCE_MAP", "1", "1Initializer", "_1_initializer"] ∧
    ¬ ∀ name ∈ (moduleOf pagePlan ordinal none pageWorld).introduced, isValid name = true := by
  have hrun : (run pagePlan ordinal none pageWorld).result =
      .generated ⟨⟨"crate::Ordinal"⟩, none, "crate::OrdinalImpl", none⟩ := by decide +kernel
  have hnamed : ∀ accessor ∈ ordinal.accessors, isValid accessor.name = true := by decide
  have hlocale : ∀ text ∈ (none : Option String), ∀ c ∈ text.toList, canContinue c = true :=
    fun text htext => absurd htext (by simp)
  obtain ⟨-, -, hiff, -, -⟩ := isValid_introduced_iff Registry.builtIn_standard hnamed hlocale hrun
  refine ⟨by decide, by decide +kernel, fun hall => ?_⟩
  have hwords := (hiff.1 hall).2 _ List.mem_cons_self
  exact absurd hwords (by decide)

end Pass

end BundleForge
