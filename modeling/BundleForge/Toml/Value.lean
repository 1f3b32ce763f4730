/-!
# TOML values and tables

Tables remember how they came to be, because that decides whether they may be opened again: a table
that is only implied by the header of a subtable may still get a header of its own, and a table made
by dotted keys may be extended by dotted keys. Tables and arrays written out in place are closed.
-/

namespace BundleForge.Toml

inductive Origin where
  /-- Mentioned in the header of a subtable. -/
  | implied
  | dotted
  | header
  /-- Written in braces. -/
  | inline
deriving DecidableEq, Repr

inductive Value where
  | string (text : String)
  | integer (number : Int)
  | float (number : Float)
  | boolean (flag : Bool)
  | moment (text : String)
  /-- An array of tables is open to further headers. -/
  | array (isOpen : Bool) (items : List Value)
  | table (origin : Origin) (entries : List (String × Value))

abbrev Entries := List (String × Value)

namespace Entries

def replace (entries : Entries) (key : String) (value : Value) : Entries :=
  entries.map fun entry => if entry.1 = key then (key, value) else entry

/-- Changes the table that a path of headers leads to, adding tables on the way. A path goes through
an open array to its last table. -/
def modify (f : Entries → Option Entries) : List String → Entries → Option Entries
  | [], entries => f entries
  | key :: rest, entries =>
    match entries.lookup key with
    | none => do
      let sub ← modify f rest []
      return entries ++ [(key, .table .implied sub)]
    | some (.table .inline _) => none
    | some (.table origin sub) => do
      let sub ← modify f rest sub
      return replace entries key (.table origin sub)
    | some (.array true items) =>
      match items.getLast? with
      | some (.table origin sub) => do
        let sub ← modify f rest sub
        return replace entries key (.array true (items.dropLast ++ [.table origin sub]))
      | _ => none
    | some _ => none

def insertDotted (key : String) (value : Value) : List String → Entries → Option Entries
  | [], entries =>
    if (entries.lookup key).isSome then none else some (entries ++ [(key, value)])
  | first :: rest, entries =>
    match entries.lookup first with
    | none => do
      let sub ← insertDotted key value rest []
      return entries ++ [(first, .table .dotted sub)]
    | some (.table .dotted sub) => do
      let sub ← insertDotted key value rest sub
      return replace entries first (.table .dotted sub)
    | some (.table .implied sub) =>
      if rest = [] then none
      else do
        let sub ← insertDotted key value rest sub
        return replace entries first (.table .implied sub)
    | some _ => none

def openTable (key : String) (entries : Entries) : Option Entries :=
  match entries.lookup key with
  | none => some (entries ++ [(key, .table .header [])])
  | some (.table .implied sub) => some (replace entries key (.table .header sub))
  | some _ => none

def appendTable (key : String) (entries : Entries) : Option Entries :=
  match entries.lookup key with
  | none => some (entries ++ [(key, .array true [.table .header []])])
  | some (.array true items) =>
    some (replace entries key (.array true (items ++ [.table .header []])))
  | some _ => none

end Entries

end BundleForge.Toml
