/-
  Relink.Text.Blank — blanks around a text.

  Main definitions:
    * `isSpace`, `trim`           — Unicode's white space
    * `isAsciiSpace`
-/

namespace Relink.Text

/-- White space of ASCII: tab, line feed, form feed, carriage return, space. -/
def isAsciiSpace (c : Char) : Bool :=
  c = '\t' || c = '\n' || c = '\x0c' || c = '\x0d' || c = ' '

/-- Unicode's property `White_Space`. -/
def isSpace (c : Char) : Bool :=
  let n := c.toNat
  (0x9 ≤ n && n ≤ 0xd) || n = 0x20 || n = 0x85 || n = 0xa0 || n = 0x1680
    || (0x2000 ≤ n && n ≤ 0x200a) || n = 0x2028 || n = 0x2029 || n = 0x202f
    || n = 0x205f || n = 0x3000

/-- A text without white space at its ends. -/
def trim (cs : List Char) : List Char :=
  ((cs.dropWhile isSpace).reverse.dropWhile isSpace).reverse

end Relink.Text
