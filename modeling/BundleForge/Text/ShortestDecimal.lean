/-!
# The shortest decimal of a floating point number

A finite number is `mantissa * 2 ^ exponent`. The decimals that round to it form an interval around
it, whose ends count when the mantissa is even. For 1, 2, 3 and more digits the two neighbours of the
number on that decimal grid are tested; the first grid with a hit gives the digits, the nearer
neighbour if both hit and the upper one if they are equally near. Seventeen digits always suffice.
-/

namespace BundleForge.Text

/-- A decimal `0.digits * 10 ^ point`. -/
structure Decimal where
  digits : Nat
  count : Nat
  point : Int

/-- A positive number with half the gaps to its neighbours, as numerators over one denominator. -/
structure Rounding where
  value : Nat
  below : Nat
  above : Nat
  denominator : Nat
  closed : Bool

namespace Rounding

/-- The interval around `mantissa * 2 ^ exponent`; the gap below the least mantissa of a binade is
half as wide. -/
def ofBinary (mantissa : Nat) (exponent : Int) : Rounding :=
  let scale := Nat.pow 2 exponent.toNat
  { value := 4 * mantissa * scale
    below := if mantissa = Nat.pow 2 52 ∧ -1074 < exponent then scale else 2 * scale
    above := 2 * scale
    denominator := 4 * Nat.pow 2 (-exponent).toNat
    closed := mantissa % 2 == 0 }

/-- The number of digits before the point, which is negative for zeros after it. -/
def point (r : Rounding) : Int :=
  let reaches (k : Int) : Bool :=
    r.denominator * Nat.pow 10 k.toNat ≤ r.value * Nat.pow 10 (-k).toNat
  match (List.range 700).find? fun offset => reaches (310 - Int.ofNat offset) with
  | some offset => 311 - Int.ofNat offset
  | none => 0

/-- Whether `multiple * 10 ^ place` rounds to the number, and how far it is from it. -/
def distance? (r : Rounding) (multiple : Nat) (place : Int) : Option Nat :=
  let shift := Nat.pow 10 (-place).toNat
  let candidate := multiple * Nat.pow 10 place.toNat * r.denominator
  let value := r.value * shift
  let distance := if candidate < value then value - candidate else candidate - value
  let gap := (if candidate < value then r.below else r.above) * shift
  if distance < gap ∨ (r.closed ∧ distance = gap) then some distance else none

/-- A decimal of `count` digits that rounds to the number, the nearer one if there are two. -/
def withDigits? (r : Rounding) (count : Nat) : Option Decimal :=
  let place := r.point - Int.ofNat count
  let floor := r.value * Nat.pow 10 (-place).toNat / (r.denominator * Nat.pow 10 place.toNat)
  let choose (multiple : Nat) : Decimal :=
    if multiple = Nat.pow 10 count then ⟨1, 1, r.point + 1⟩ else ⟨multiple, count, r.point⟩
  match r.distance? floor place, r.distance? (floor + 1) place with
  | some low, some high => some (choose (if low < high then floor else floor + 1))
  | some _, none => some (choose floor)
  | none, some _ => some (choose (floor + 1))
  | none, none => none

def shortest (r : Rounding) : Decimal :=
  ((List.range 17).findSome? fun n => r.withDigits? (n + 1)).getD ⟨0, 1, 1⟩

end Rounding

/-- A decimal in positional notation, always with a point and a digit after it. -/
def Decimal.positional (d : Decimal) : String :=
  let digits := Nat.toDigits 10 d.digits
  let zeros (count : Int) : List Char := List.replicate count.toNat '0'
  let count := Int.ofNat d.count
  String.ofList <|
    if d.point ≤ 0 then "0.".toList ++ zeros (-d.point) ++ digits
    else if count ≤ d.point then digits ++ zeros (d.point - count) ++ ".0".toList
    else digits.take d.point.toNat ++ '.' :: digits.drop d.point.toNat

/-- A number in positional notation with the fewest digits that read back. -/
def shortestDecimal (x : Float) : String :=
  let bits := x.toBits.toNat
  let sign := if bits / Nat.pow 2 63 = 1 then "-" else ""
  let biased := bits / Nat.pow 2 52 % Nat.pow 2 11
  let fraction := bits % Nat.pow 2 52
  if biased = 2047 then (if fraction = 0 then sign ++ "inf" else "NaN")
  else if biased = 0 ∧ fraction = 0 then sign ++ "0.0"
  else
    let r :=
      if biased = 0 then Rounding.ofBinary fraction (-1074)
      else Rounding.ofBinary (Nat.pow 2 52 + fraction) (Int.ofNat biased - 1075)
    sign ++ r.shortest.positional

end BundleForge.Text
