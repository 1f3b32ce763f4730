/-!
# Display sizes

An accessor may ask for a width, a height or both. A single side keeps the aspect ratio: the other is
the nearest whole number, halves going up, and stays within a word. On the way to it the numbers take
words of twice the size.
-/

namespace BundleForge.Image

/-- The product of a ratio, with half of its divisor, so that the quotient is the nearest one. -/
def dividend (target side other : UInt32) : UInt64 :=
  target.toUInt64 * other.toUInt64 + side.toUInt64 / 2

def narrow (wide : UInt64) : UInt32 :=
  if wide ≤ 0xffffffff then wide.toUInt32 else 0xffffffff

/-- The integer nearest to `target * other / side`, or the largest word; zero when there is no
side. -/
def scaled (target side other : UInt32) : UInt32 :=
  if side = 0 then 0 else narrow (dividend target side other / side.toUInt64)

/-- An override of zero is none. -/
def proper (side : Option UInt32) : Option UInt32 :=
  side.filter (0 < ·)

def displaySize (intrinsicWidth intrinsicHeight : UInt32) (width height : Option UInt32) :
    UInt32 × UInt32 :=
  match proper width, proper height with
  | some width, some height => (width, height)
  | some width, none => (width, scaled width intrinsicWidth intrinsicHeight)
  | none, some height => (scaled height intrinsicHeight intrinsicWidth, height)
  | none, none => (intrinsicWidth, intrinsicHeight)

end BundleForge.Image
