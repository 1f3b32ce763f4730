import BundleForge.Field
import BundleForge.Proofs.Identifier
/-!
# What a registry holds

Whatever programs are run on a registry, all they do to it is a sequence of requests, and the registry keeps one field
for each of them: with the type, the initializer and the flags of the request, and with its name, spelled anew and
perhaps numbered, as the identifier.
-/

namespace BundleForge

/-- A field as a request may be answered with it. -/
structure Field.Answers (field : Field) (request : FieldRequest) : Prop where
  ident : ∃ number, field.ident = Identifier.numbered "_" (FieldRegistry.baseName request) number
  type : field.type = request.type
  initializer : field.initializer = request.initializer
  isStatic : field.isStatic = request.isStatic
  isFinal : field.isFinal = request.isFinal

namespace FieldRegistry

def defineAll (registry : FieldRegistry) (requests : List FieldRequest) : FieldRegistry :=
  requests.foldl define registry

variable {registry : FieldRegistry} {request : FieldRequest} {requests more : List FieldRequest}

theorem defineAll_append :
    registry.defineAll (requests ++ more) = (registry.defineAll requests).defineAll more :=
  List.foldl_append

theorem fields_define (registry : FieldRegistry) (request : FieldRequest) :
    ∃ field : Field, field.Answers request ∧ (registry.define request).fields = registry.fields ++ [field] :=
  ⟨_, ⟨Identifier.exists_fresh_eq _ _ _, rfl, rfl, rfl, rfl⟩, registry.fields_define_eq request⟩

theorem fields_defineAll (registry : FieldRegistry) (requests : List FieldRequest) :
    ∃ fields, List.Forall₂ Field.Answers fields requests ∧
      (registry.defineAll requests).fields = registry.fields ++ fields := by
  induction requests generalizing registry with
  | nil => exact ⟨[], .nil, (List.append_nil _).symm⟩
  | cons request rest ih =>
    obtain ⟨field, hanswers, hdefine⟩ := registry.fields_define request
    obtain ⟨fields, hfields, hrest⟩ := ih (registry.define request)
    refine ⟨field :: fields, .cons hanswers hfields, hrest.trans ?_⟩
    rw [hdefine, List.append_assoc, List.singleton_append]

theorem answers_of_mem_defineAll {field : Field} (h : field ∈ (empty.defineAll requests).fields) :
    ∃ request ∈ requests, field.Answers request := by
  obtain ⟨fields, hfields, heq⟩ := empty.fields_defineAll requests
  rw [heq, fields_empty, List.nil_append] at h
  obtain ⟨index, hindex, rfl⟩ := List.getElem_of_mem h
  exact ⟨requests.get ⟨index, hfields.length_eq ▸ hindex⟩, List.get_mem _ _,
    (List.forall₂_iff_get.1 hfields).2 index hindex _⟩

end FieldRegistry

namespace FieldProgram

variable {α β : Type}

/-- The requests that a program makes when it is run on a registry. -/
def requests (registry : FieldRegistry) : FieldProgram α → List FieldRequest
  | done _ => []
  | define request next => request :: (next (registry.identFor request)).requests (registry.define request)

theorem run_snd (registry : FieldRegistry) (program : FieldProgram α) :
    (program.run registry).2 = registry.defineAll (program.requests registry) := by
  induction program generalizing registry with
  | done result => rfl
  | define request next ih => exact ih _ _

theorem requests_bind (program : FieldProgram α) (next : α → FieldProgram β) (registry : FieldRegistry) :
    (program >>= next).requests registry = program.requests registry ++
      (next (program.run registry).1).requests (program.run registry).2 := by
  induction program generalizing registry with
  | done result => rfl
  | define request rest ih => exact congrArg (List.cons request) (ih _ _)

end FieldProgram

end BundleForge
