import BundleForge.Proofs.Field
import BundleForge.Proofs.Generator
import BundleForge.Proofs.OrderedMap
import Mathlib
/-!
# A sequence of calls

Whatever fields are asked for, one call after the other, each call is answered with the name it asks for, or with that
name and the least number that is free by then. The registry holds one field for each call, in the order of the calls,
and no later call touches a field that is there.
-/

namespace BundleForge

namespace Identifier

/-- The name that is given when some names are taken: the one asked for, or the first free one with a number. -/
inductive Gives (taken : List String) (base : String) : String → Prop
  | plain (free : base ∉ taken) : Gives taken base base
  | numbered (used : base ∈ taken) (number : ℕ) (free : base ++ "_" ++ number.repr ∉ taken)
      (least : ∀ smaller < number, base ++ "_" ++ smaller.repr ∈ taken) :
      Gives taken base (base ++ "_" ++ number.repr)

/-- Names are tried one after the other, so that all in front of the one that is given are taken. -/
theorem exists_least_number (used : List String) (separator base : String) :
    ∃ count, fresh used separator base = numbered separator base count ∧
      numbered separator base count ∉ used ∧ ∀ smaller < count, numbered separator base smaller ∈ used := by
  have hfind := find?_candidates used separator base
  rw [candidates, List.find?_map, Option.map_eq_some_iff] at hfind
  obtain ⟨count, hcount, hfresh⟩ := hfind
  rw [List.find?_range_eq_some] at hcount
  obtain ⟨hfree, -, hleast⟩ := hcount
  refine ⟨count, hfresh.symm, by simpa using hfree, fun smaller hsmaller => ?_⟩
  simpa using hleast smaller hsmaller

theorem gives_fresh (used : List String) (base : String) : Gives used base (fresh used "_" base) := by
  obtain ⟨count, hfresh, hfree, hleast⟩ := exists_least_number used "_" base
  rw [hfresh]
  cases count with
  | zero => exact .plain hfree
  | succ number =>
    exact .numbered (hleast 0 (Nat.succ_pos number)) number hfree fun smaller hsmaller =>
      hleast (smaller + 1) (Nat.succ_lt_succ hsmaller)

end Identifier

namespace FieldRequest

/-- The name that a call asks for, in the case of its kind. -/
inductive Asks (request : FieldRequest) : String → Prop
  | static (isStatic : request.isStatic = true) (nonempty : Identifier.toScreamingCase request.name ≠ "") :
      Asks request (Identifier.toScreamingCase request.name)
  | field (isStatic : request.isStatic = false) (nonempty : Identifier.toSnakeCase request.name ≠ "") :
      Asks request (Identifier.toSnakeCase request.name)
  /-- Nothing is left of a name without words, whatever its case. -/
  | nameless (screaming : Identifier.toScreamingCase request.name = "")
      (snake : Identifier.toSnakeCase request.name = "") : Asks request "field"

theorem toScreamingCase_eq_empty_iff {name : String} :
    Identifier.toScreamingCase name = "" ↔ Identifier.toSnakeCase name = "" := by
  rw [Identifier.toScreamingCase, Identifier.toSnakeCase, String.ofList_eq_empty_iff, String.ofList_eq_empty_iff,
    Identifier.screaming, List.map_eq_nil_iff]

theorem asks_baseName (request : FieldRequest) : request.Asks (FieldRegistry.baseName request) := by
  cases hstatic : request.isStatic with
  | true =>
    have hbase : FieldRegistry.baseName request = if Identifier.toScreamingCase request.name = "" then "field"
        else Identifier.toScreamingCase request.name := by
      rw [FieldRegistry.baseName, hstatic]
      rfl
    rw [hbase]
    split
    · rename_i hempty
      exact .nameless hempty (toScreamingCase_eq_empty_iff.1 hempty)
    · rename_i hnonempty
      exact .static hstatic hnonempty
  | false =>
    have hbase : FieldRegistry.baseName request = if Identifier.toSnakeCase request.name = "" then "field"
        else Identifier.toSnakeCase request.name := by
      rw [FieldRegistry.baseName, hstatic]
      rfl
    rw [hbase]
    split
    · rename_i hempty
      exact .nameless (toScreamingCase_eq_empty_iff.2 hempty) hempty
    · rename_i hnonempty
      exact .field hstatic hnonempty

/-- The field for a call that is answered with some identifier. -/
def field (request : FieldRequest) (ident : String) : Field :=
  ⟨ident, request.type, request.initializer, request.isStatic, request.isFinal⟩

end FieldRequest

namespace FieldRegistry

/-- The identifiers that some requests are answered with, one after the other. -/
def answers (registry : FieldRegistry) : List FieldRequest → List String
  | [] => []
  | wanted :: rest => registry.identFor wanted :: (registry.define wanted).answers rest

end FieldRegistry

namespace FieldProgram

def requestAll : List FieldRequest → FieldProgram (List String)
  | [] => pure []
  | wanted :: rest => do
    let ident ← request wanted
    let idents ← requestAll rest
    return ident :: idents

theorem run_requestAll (requests : List FieldRequest) (registry : FieldRegistry) :
    (requestAll requests).run registry = (registry.answers requests, registry.defineAll requests) := by
  induction requests generalizing registry with
  | nil => rfl
  | cons wanted rest ih =>
    have hrun : (requestAll (wanted :: rest)).run registry =
        let last := (requestAll rest).run (registry.define wanted)
        (registry.identFor wanted :: last.1, last.2) :=
      Generator.run_bind (requestAll rest) (fun idents => pure (_ :: idents)) (registry.define wanted)
    rw [hrun, ih]
    rfl

end FieldProgram

namespace FieldRegistry

/-! ### What the calls do to a registry -/

section

variable (registry : FieldRegistry) (requests : List FieldRequest)

theorem used_define (wanted : FieldRequest) :
    (registry.define wanted).used = registry.used ++ [registry.identFor wanted] := rfl

theorem length_answers : (registry.answers requests).length = requests.length := by
  induction requests generalizing registry with
  | nil => rfl
  | cons wanted rest ih => rw [answers, List.length_cons, ih, List.length_cons]

theorem answers_take (count : ℕ) :
    registry.answers (requests.take count) = (registry.answers requests).take count := by
  induction requests generalizing registry count with
  | nil => rw [List.take_nil, answers, List.take_nil]
  | cons wanted rest ih =>
    cases count with
    | zero => rfl
    | succ count => rw [List.take_succ_cons, answers, answers, List.take_succ_cons, ih]

def calls : List (FieldRequest × String) := requests.zip (registry.answers requests)

theorem fields_defineAll_eq :
    (registry.defineAll requests).fields =
      registry.fields ++ (registry.calls requests).map fun call => call.1.field call.2 := by
  induction requests generalizing registry with
  | nil => exact (List.append_nil _).symm
  | cons wanted rest ih =>
    have hlater := ih (registry.define wanted)
    rw [fields_define_eq, List.append_assoc] at hlater
    exact hlater

theorem used_defineAll : (registry.defineAll requests).used = registry.used ++ registry.answers requests := by
  induction requests generalizing registry with
  | nil => exact (List.append_nil _).symm
  | cons wanted rest ih =>
    have hlater := ih (registry.define wanted)
    rw [used_define, List.append_assoc] at hlater
    exact hlater

theorem gives_answer {index : ℕ} {wanted : FieldRequest} {ident : String}
    (hwanted : requests[index]? = some wanted) (hident : (registry.answers requests)[index]? = some ident) :
    Identifier.Gives (registry.used ++ (registry.answers requests).take index) (baseName wanted) ident := by
  induction requests generalizing registry index with
  | nil => exact absurd hwanted.symm (Option.some_ne_none wanted)
  | cons first rest ih =>
    cases index with
    | zero =>
      obtain rfl := Option.some.inj hwanted
      obtain rfl := Option.some.inj hident
      rw [List.take_zero, List.append_nil]
      exact Identifier.gives_fresh registry.used (baseName first)
    | succ index =>
      have hlater := ih (registry.define first) hwanted hident
      rw [used_define, List.append_assoc] at hlater
      exact hlater

end

theorem get?_eq_some_iff {registry : FieldRegistry} {ident : String} {field : Field} :
    registry.get? ident = some field ↔ field ∈ registry.fields ∧ field.ident = ident := by
  rw [get?, OrderedMap.get?_eq_some_iff]
  constructor
  · intro hentry
    exact ⟨List.mem_map_of_mem hentry, registry.ident_eq _ hentry⟩
  · rintro ⟨hfield, rfl⟩
    obtain ⟨entry, hentry, rfl⟩ := List.mem_map.1 hfield
    rw [registry.ident_eq entry hentry]
    exact hentry

/-! ### A fresh registry -/

/-- What a sequence of calls on a fresh registry returns, and what the registry holds behind them. -/
structure Registers (requests : List FieldRequest) (idents : List String) (registry : FieldRegistry) : Prop where
  length : idents.length = requests.length
  /-- Identifiers differ from each other and from the reserved names. -/
  distinct : (reservedIdents ++ idents).Nodup
  /-- A call gets the name it asks for, or the name with the least number that is free by then. -/
  named : ∀ (index : ℕ) (wanted : FieldRequest) (ident : String),
    requests[index]? = some wanted → idents[index]? = some ident →
      ∃ base, wanted.Asks base ∧ Identifier.Gives (reservedIdents ++ idents.take index) base ident
  /-- The names in use are kept in step with the answers. -/
  used : registry.used = reservedIdents ++ idents
  fields : registry.fields = (requests.zip idents).map fun call => call.1.field call.2
  /-- After some of the calls the registry holds the first of these fields, as they stay. -/
  stable : ∀ count, ∃ before,
    (FieldProgram.requestAll (requests.take count)).run .empty = (idents.take count, before) ∧
      before.fields = registry.fields.take count
  found : ∀ (ident : String) (field : Field),
    registry.get? ident = some field ↔ field ∈ registry.fields ∧ field.ident = ident
  statics : registry.statics =
    ((requests.zip idents).filter (·.1.isStatic)).map fun call => call.1.field call.2
  instances : registry.instanceFields =
    ((requests.zip idents).filter (!·.1.isStatic)).map fun call => call.1.field call.2
  split : (registry.statics ++ registry.instanceFields).Perm registry.fields

/-- Whatever fields are asked for in turn, each call returns a name of its own, and the registry holds what was asked
for. -/
theorem registers_requestAll (requests : List FieldRequest) :
    ∃ idents registry, (FieldProgram.requestAll requests).run .empty = (idents, registry) ∧
      Registers requests idents registry := by
  have hfields (requests : List FieldRequest) : (empty.defineAll requests).fields =
      (empty.calls requests).map fun call => call.1.field call.2 := empty.fields_defineAll_eq requests
  have hused : (empty.defineAll requests).used = reservedIdents ++ empty.answers requests :=
    empty.used_defineAll requests
  refine ⟨_, _, FieldProgram.run_requestAll requests empty, ?_⟩
  constructor
  case length => exact length_answers empty requests
  case distinct =>
    rw [← hused]
    exact nodup_used _
  case named =>
    intro index wanted ident hwanted hident
    exact ⟨_, wanted.asks_baseName, gives_answer empty requests hwanted hident⟩
  case used => exact hused
  case fields => exact hfields requests
  case stable =>
    intro count
    refine ⟨empty.defineAll (requests.take count), ?_, ?_⟩
    · rw [FieldProgram.run_requestAll, answers_take]
    · rw [hfields, hfields, calls, answers_take, calls, ← List.map_take,
        List.zip_eq_zipWith, List.zip_eq_zipWith, List.take_zipWith]
  case found => exact fun ident field => get?_eq_some_iff
  case statics =>
    rw [statics, hfields, List.filter_map]
    rfl
  case instances =>
    rw [instanceFields, hfields, List.filter_map]
    rfl
  case split => exact List.filter_append_perm _ _

/-- Calls for a name that is taken, once with a number that is taken as well, for a reserved name, and for none. -/
def crowd : List FieldRequest :=
  [⟨"u32", "logo", none, false, false⟩, ⟨"u32", "logo_0", none, false, false⟩,
    ⟨"u8", "Logo", some "1", false, true⟩, ⟨"String", "resourceMap", none, true, true⟩,
    ⟨"String", "--", none, true, true⟩]

theorem registers_crowd :
    ∃ idents registry, (FieldProgram.requestAll crowd).run .empty = (idents, registry) ∧
      idents = ["logo", "logo_0", "logo_1", "RESOURCE_MAP_0", "field"] ∧
      crowd[2]? = some ⟨"u8", "Logo", some "1", false, true⟩ ∧ idents[2]? = some "logo_1" ∧
      ∃ base, FieldRequest.Asks ⟨"u8", "Logo", some "1", false, true⟩ base ∧
        Identifier.Gives (reservedIdents ++ idents.take 2) base "logo_1" := by
  obtain ⟨idents, registry, hrun, hregisters⟩ := registers_requestAll crowd
  have hanswers : empty.answers crowd = ["logo", "logo_0", "logo_1", "RESOURCE_MAP_0", "field"] := by
    decide +kernel
  have hidents : idents = ["logo", "logo_0", "logo_1", "RESOURCE_MAP_0", "field"] := by
    rw [FieldProgram.run_requestAll, hanswers] at hrun
    exact (Prod.mk.inj hrun).1.symm
  have hident : idents[2]? = some "logo_1" := by
    rw [hidents]
    rfl
  exact ⟨idents, registry, hrun, hidents, rfl, hident, hregisters.named 2 _ _ rfl hident⟩

end FieldRegistry

end BundleForge
