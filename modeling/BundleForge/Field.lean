import BundleForge.Identifier.Fresh
import BundleForge.Identifier.Words
import BundleForge.OrderedMap
/-!
# Fields of a generated type

Generators and the accessors of a bundle ask for fields one at a time, and each request is answered
with the identifier of the new field. Static fields are named in upper case, instance fields in lower
case, and a taken name gets a number. Identifiers are distinct from each other and from the two that
every generated type declares for itself, whatever is asked for. The registry keeps the names in use
next to its fields, and carries with it that the two agree.
-/

namespace BundleForge

def instanceIdent : String := "_INSTANCE0"

/-- The table of a generated type for looking resources up by name. -/
def resourceMapIdent : String := "RESOURCE_MAP"

def reservedIdents : List String := [instanceIdent, resourceMapIdent]

structure FieldRequest where
  type : String
  name : String
  initializer : Option String
  isStatic : Bool
  isFinal : Bool
deriving DecidableEq, Repr

structure Field where
  ident : String
  type : String
  initializer : Option String
  isStatic : Bool
  isFinal : Bool
deriving DecidableEq, Repr

/-- The fields defined so far by their identifiers, in the order of their definition, next to all
names in use. -/
structure FieldRegistry where
  entries : OrderedMap String Field
  used : List String
  ident_eq : ∀ entry ∈ entries.entries, entry.2.ident = entry.1
  used_eq : used = reservedIdents ++ entries.keys
  nodup_used : used.Nodup

namespace FieldRegistry

def empty : FieldRegistry where
  entries := .empty
  used := reservedIdents
  ident_eq := fun _ h => absurd h List.not_mem_nil
  used_eq := by rw [OrderedMap.keys_empty, List.append_nil]
  nodup_used := by decide

def fields (registry : FieldRegistry) : List Field := registry.entries.values

def baseName (request : FieldRequest) : String :=
  let spelled :=
    if request.isStatic then Identifier.toScreamingCase request.name
    else Identifier.toSnakeCase request.name
  if spelled = "" then "field" else spelled

def identFor (registry : FieldRegistry) (request : FieldRequest) : String :=
  Identifier.fresh registry.used "_" (baseName request)

section

variable (registry : FieldRegistry) (request : FieldRequest)

theorem identFor_not_mem_used : registry.identFor request ∉ registry.used :=
  Identifier.fresh_not_mem registry.used "_" (baseName request)

theorem identFor_not_mem_keys : registry.identFor request ∉ registry.entries.keys := by
  intro h
  refine registry.identFor_not_mem_used request ?_
  rw [registry.used_eq]
  exact List.mem_append_right _ h

theorem nodup_used_append : (registry.used ++ [registry.identFor request]).Nodup := by
  rw [List.nodup_append]
  refine ⟨registry.nodup_used, by simp, fun a ha b hb hab => ?_⟩
  rw [List.mem_singleton] at hb
  exact registry.identFor_not_mem_used request (hb ▸ hab ▸ ha)

end

/-- The identifier is new, so that its field comes behind all others. -/
def define (registry : FieldRegistry) (request : FieldRequest) : FieldRegistry where
  entries := registry.entries.insert (registry.identFor request)
    ⟨registry.identFor request, request.type, request.initializer, request.isStatic, request.isFinal⟩
  used := registry.used ++ [registry.identFor request]
  ident_eq := by
    rw [OrderedMap.entries_insert_of_not_mem (registry.identFor_not_mem_keys request)]
    intro entry hentry
    obtain hearlier | hnew := List.mem_append.1 hentry
    · exact registry.ident_eq entry hearlier
    · rw [List.mem_singleton.1 hnew]
  used_eq := by
    rw [OrderedMap.keys_insert, if_neg (registry.identFor_not_mem_keys request), ← List.append_assoc,
      ← registry.used_eq]
  nodup_used := registry.nodup_used_append request

def get? (registry : FieldRegistry) (ident : String) : Option Field :=
  registry.entries.get? ident

def statics (registry : FieldRegistry) : List Field :=
  registry.fields.filter (·.isStatic)

def instanceFields (registry : FieldRegistry) : List Field :=
  registry.fields.filter (!·.isStatic)

section

variable (registry : FieldRegistry) (request : FieldRequest)

theorem fields_empty : empty.fields = [] := rfl

theorem fields_define_eq : (registry.define request).fields = registry.fields ++
    [⟨registry.identFor request, request.type, request.initializer, request.isStatic, request.isFinal⟩] :=
  OrderedMap.values_insert_of_not_mem (registry.identFor_not_mem_keys request)

theorem map_ident_fields : registry.fields.map (·.ident) = registry.entries.keys := by
  rw [fields, OrderedMap.values, List.map_map, OrderedMap.keys]
  exact List.map_congr_left registry.ident_eq

theorem used_eq_append : registry.used = reservedIdents ++ registry.fields.map (·.ident) := by
  rw [map_ident_fields, ← registry.used_eq]

theorem nodup_idents : (reservedIdents ++ registry.fields.map (·.ident)).Nodup := by
  rw [← used_eq_append]
  exact registry.nodup_used

end

end FieldRegistry

/-- What is done with fields: asking for one, learning its identifier, and going on. -/
inductive FieldProgram (α : Type) where
  | done (result : α)
  | define (request : FieldRequest) (next : String → FieldProgram α)

namespace FieldProgram

variable {α β : Type}

def bind : FieldProgram α → (α → FieldProgram β) → FieldProgram β
  | done result, f => f result
  | define request next, f => define request fun ident => (next ident).bind f

instance : Monad FieldProgram where
  pure := done
  bind := bind

def request (wanted : FieldRequest) : FieldProgram String :=
  define wanted done

def run (registry : FieldRegistry) : FieldProgram α → α × FieldRegistry
  | done result => (result, registry)
  | define request next => (next (registry.identFor request)).run (registry.define request)

end FieldProgram

end BundleForge
