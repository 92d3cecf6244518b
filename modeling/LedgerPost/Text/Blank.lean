/-!
# Blank characters

The characters with the `White_Space` property of Unicode, and texts without the blanks around
them.
-/

namespace LedgerPost.Text

/-- Whether a character has the `White_Space` property. -/
def isBlank (c : Char) : Bool :=
  let n := c.toNat
  (9 ≤ n && n ≤ 13) || n == 32 || n == 0x85 || n == 0xa0 || n == 0x1680
    || (0x2000 ≤ n && n ≤ 0x200a) || n == 0x2028 || n == 0x2029 || n == 0x202f
    || n == 0x205f || n == 0x3000

/-- Leaves out the blanks in front. -/
def dropBlanks (s : List Char) : List Char := s.dropWhile isBlank

/-- Leaves out the blanks on both sides. -/
def trim (s : String) : String :=
  String.ofList (dropBlanks (dropBlanks s.toList).reverse).reverse

end LedgerPost.Text
