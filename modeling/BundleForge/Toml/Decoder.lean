import BundleForge.Text.Quoted
import BundleForge.Text.ShortestDecimal
import BundleForge.Toml.Parser
/-!
# Reading data out of TOML

A decoder turns a value into data, or tells in which way the value has the wrong form. A record is
written as a table with named entries, or as an array with its fields in their fixed order.
-/

namespace BundleForge.Toml

inductive Mismatch where
  | wrongType (found : String) (expected : String)
  | wrongValue (found : String) (expected : String)
  | tooShort (length : Nat) (expected : String)
  | unknownField (name : String) (known : List String)
  | missingField (name : String)
  | overflow
deriving DecidableEq, Repr

namespace Mismatch

def choice : List String → String
  | [] => "there are no fields"
  | [name] => s!"expected `{name}`"
  | [first, second] => s!"expected `{first}` or `{second}`"
  | names => "expected one of " ++ String.intercalate ", " (names.map fun name => s!"`{name}`")

def message : Mismatch → String
  | wrongType found expected => s!"invalid type: {found}, expected {expected}"
  | wrongValue found expected => s!"invalid value: {found}, expected {expected}"
  | tooShort length expected => s!"invalid length {length}, expected {expected}"
  | unknownField name [] => s!"unknown field `{name}`, there are no fields"
  | unknownField name known => s!"unknown field `{name}`, " ++ choice known
  | missingField name => s!"missing field `{name}`"
  | overflow => "integer number overflowed"

end Mismatch

/-- The least number that does not fit in a word of so many bits. -/
def pastWord (bits : Nat) : Int := Int.ofNat (Nat.pow 2 bits)

def Value.describe : Value → String
  | .string text => "string " ++ Text.quoted text
  | .integer number =>
    if number < -pastWord 63 ∨ pastWord 64 ≤ number then
      (if number < pastWord 127 then s!"integer `{number}` as i128" else s!"integer `{number}` as u128")
    else s!"integer `{number}`"
  | .float number => "floating point `" ++ Text.shortestDecimal number ++ "`"
  | .boolean flag => s!"boolean `{flag}`"
  | .moment _ | .table .. => "map"
  | .array .. => "sequence"

abbrev Decoder (α : Type) := Value → Except Mismatch α

namespace Decoder

/-- A value of another type than expected; an integer of more than 128 bits is of none. -/
def refuse {α : Type} (value : Value) (expected : String) : Except Mismatch α :=
  match value with
  | .integer number =>
    if number < -pastWord 127 ∨ pastWord 128 ≤ number then .error .overflow
    else .error (.wrongType value.describe expected)
  | _ => .error (.wrongType value.describe expected)

def textFor (expected : String) : Decoder String
  | .string text => .ok text
  | value => refuse value expected

def text : Decoder String := textFor "a string"

def flag : Decoder Bool
  | .boolean flag => .ok flag
  | value => refuse value "a boolean"

def word32 : Decoder UInt32
  | .integer number =>
    if 0 ≤ number ∧ number < pastWord 32 then .ok (UInt32.ofNat number.toNat)
    else if -pastWord 63 ≤ number ∧ number < pastWord 64 then
      .error (.wrongValue (Value.integer number).describe "u32")
    else refuse (.integer number) "u32"
  | value => refuse value "u32"

def each {α : Type} (item : Decoder α) : List Value → Except Mismatch (List α)
  | [] => .ok []
  | value :: rest => do
    let first ← item value
    let others ← each item rest
    return first :: others

def list {α : Type} (item : Decoder α) : Decoder (List α)
  | .array _ items => each item items
  | value => refuse value "a sequence"

end Decoder

/-- A record as it is written: named entries, or fields in their order. -/
inductive Fields where
  | named (entries : Entries)
  | ordered (items : List Value)

structure RecordForm where
  label : String
  fields : List String

namespace RecordForm

def open? (form : RecordForm) : Value → Except Mismatch Fields
  | .table _ entries =>
    match entries.find? fun entry => !form.fields.contains entry.1 with
    | some (name, _) => .error (.unknownField name form.fields)
    | none => .ok (.named entries)
  | .array _ items => .ok (.ordered items)
  | value => Decoder.refuse value ("struct " ++ form.label)

def find? (form : RecordForm) (name : String) : Fields → Option Value
  | .named entries => entries.lookup name
  | .ordered items => items[form.fields.idxOf name]?

/-- What is wrong when a record in order ends before a field. -/
def endsBefore (form : RecordForm) (name : String) : Mismatch :=
  .tooShort (form.fields.idxOf name)
    (s!"struct {form.label} with {form.fields.length} element" ++
      if form.fields.length = 1 then "" else "s")

def required {α : Type} (form : RecordForm) (fields : Fields) (name : String)
    (decode : Decoder α) : Except Mismatch α :=
  match form.find? name fields, fields with
  | some value, _ => decode value
  | none, .named _ => .error (.missingField name)
  | none, .ordered _ => .error (form.endsBefore name)

/-- A field that a table may leave out. -/
def optional {α : Type} (form : RecordForm) (fields : Fields) (name : String)
    (decode : Decoder α) : Except Mismatch (Option α) :=
  match form.find? name fields, fields with
  | some value, _ => (decode value).map some
  | none, .named _ => .ok none
  | none, .ordered _ => .error (form.endsBefore name)

def defaulted {α : Type} (form : RecordForm) (fields : Fields) (name : String) (default : α)
    (decode : Decoder α) : Except Mismatch α :=
  match form.find? name fields with
  | some value => decode value
  | none => .ok default

end RecordForm

/-- Why a text is not the data it should be. -/
inductive ReadError where
  | syntaxError
  | mismatch (cause : Mismatch)
deriving DecidableEq, Repr

def ReadError.message : ReadError → String
  | syntaxError => "TOML parse error"
  | mismatch cause => cause.message

def read {α : Type} (decode : Decoder α) (text : String) : Except ReadError α :=
  match document? text with
  | none => .error .syntaxError
  | some entries =>
    match decode (.table .header entries) with
    | .ok data => .ok data
    | .error cause => .error (.mismatch cause)

end BundleForge.Toml
