import BundleForge.Toml.Value
/-!
# Numbers, booleans and dates

A value that is neither quoted nor bracketed is one word, and the word alone says what it is. Digits
may be grouped by single underscores, a decimal integer has no leading zero, and the other bases have
no sign.
-/

namespace BundleForge.Toml

def digitValue (c : Char) : Nat :=
  if c.isDigit then c.toNat - '0'.toNat
  else if 'a' ≤ c ∧ c ≤ 'f' then c.toNat - 'a'.toNat + 10
  else if 'A' ≤ c ∧ c ≤ 'F' then c.toNat - 'A'.toNat + 10
  else 16

def isDigitOf (base : Nat) (c : Char) : Bool := digitValue c < base

/-- The digits of a word in which single underscores stand between digits only. -/
def digits? (base : Nat) (word : List Char) : Option (List Char) :=
  let groups := word.splitOn '_'
  if groups.all fun group => !group.isEmpty && group.all (isDigitOf base) then some groups.flatten
  else none

def natural (base : Nat) (digits : List Char) : Nat :=
  digits.foldl (fun value c => value * base + digitValue c) 0

def cutSign : List Char → Bool × List Char
  | '-' :: rest => (true, rest)
  | '+' :: rest => (false, rest)
  | word => (false, word)

def decimal? (word : List Char) : Option Nat := do
  let digits ← digits? 10 word
  guard (digits.length = 1 ∨ digits.head? ≠ some '0')
  return natural 10 digits

def signed (negative : Bool) (value : Nat) : Int :=
  if negative then -Int.ofNat value else Int.ofNat value

def integer? : List Char → Option Int
  | '0' :: 'x' :: word => (digits? 16 word).map fun digits => natural 16 digits
  | '0' :: 'o' :: word => (digits? 8 word).map fun digits => natural 8 digits
  | '0' :: 'b' :: word => (digits? 2 word).map fun digits => natural 2 digits
  | word =>
    let (negative, rest) := cutSign word
    (decimal? rest).map (signed negative)

def cutAt (p : Char → Bool) (word : List Char) : List Char × Option (List Char) :=
  match word.span (!p ·) with
  | (before, []) => (before, none)
  | (before, _ :: after) => (before, some after)

def float? (word : List Char) : Option Float := do
  let (negative, rest) := cutSign word
  let value ←
    if rest = "inf".toList then pure (1.0 / 0.0)
    else if rest = "nan".toList then pure (0.0 / 0.0)
    else do
      let (mantissa, exponent?) := cutAt (fun c => c == 'e' || c == 'E') rest
      let (whole, fraction?) := cutAt (· == '.') mantissa
      guard (exponent?.isSome ∨ fraction?.isSome)
      let whole ← decimal? whole
      let fraction ←
        match fraction? with
        | some fraction => digits? 10 fraction
        | none => pure []
      let exponent ←
        match exponent? with
        | some exponent => do
          let (negative, exponent) := cutSign exponent
          let digits ← digits? 10 exponent
          pure (signed negative (natural 10 digits))
        | none => pure 0
      let shift := exponent - fraction.length
      pure (Float.ofScientific (whole * Nat.pow 10 fraction.length + natural 10 fraction) (shift < 0)
        shift.natAbs)
  return if negative then -value else value

/-! ## Dates and times -/

/-- A number of exactly `count` digits within bounds. -/
def field? (count low high : Nat) (word : List Char) : Bool :=
  word.length == count && word.all Char.isDigit && low ≤ natural 10 word && natural 10 word ≤ high

def daysIn (year month : Nat) : Nat :=
  if month = 2 then
    (if year % 4 = 0 ∧ (year % 100 ≠ 0 ∨ year % 400 = 0) then 29 else 28)
  else if month = 4 ∨ month = 6 ∨ month = 9 ∨ month = 11 then 30
  else 31

def isDate (word : List Char) : Bool :=
  match word.splitOn '-' with
  | [year, month, day] =>
    field? 4 0 9999 year && field? 2 1 12 month &&
      field? 2 1 (daysIn (natural 10 year) (natural 10 month)) day
  | _ => false

/-- Hours and minutes, and seconds that may be left out or have a fraction. -/
def isTime (word : List Char) : Bool :=
  let (clock, fraction) := cutAt (· == '.') word
  match clock.splitOn ':', fraction with
  | [hour, minute], none => field? 2 0 23 hour && field? 2 0 59 minute
  | [hour, minute, second], fraction =>
    field? 2 0 23 hour && field? 2 0 59 minute && field? 2 0 60 second &&
      (match fraction with
        | some digits => !digits.isEmpty && digits.all Char.isDigit
        | none => true)
  | _, _ => false

def isOffset (word : List Char) : Bool :=
  match word.splitOn ':' with
  | [hour, minute] => field? 2 0 23 hour && field? 2 0 59 minute
  | _ => false

/-- A time with an optional offset from universal time. -/
def isZonedTime (word : List Char) : Bool :=
  match word.getLast? with
  | some 'Z' | some 'z' => isTime word.dropLast
  | _ =>
    match cutAt (fun c => c == '+' || c == '-') word with
    | (time, some offset) => isTime time && isOffset offset
    | (time, none) => isTime time

def isMoment (word : List Char) : Bool :=
  isDate word || isTime word ||
    (isDate (word.take 10) &&
      match word.drop 10 with
      | separator :: time =>
        (separator == 'T' || separator == 't' || separator == ' ') && isZonedTime time
      | [] => false)

def scalar? (word : List Char) : Option Value :=
  if word = "true".toList then some (.boolean true)
  else if word = "false".toList then some (.boolean false)
  else if isMoment word then some (.moment (String.ofList word))
  else
    match integer? word with
    | some number => some (.integer number)
    | none => (float? word).map .float

end BundleForge.Toml
