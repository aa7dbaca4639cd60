/-
  Lending.Text.Blank — white space around a number.

  `isBlank` is white space of any kind: the ASCII controls from tab to carriage return, the
  four information separators, the space, and the spaces and separators of Unicode. Whole
  numbers are surrounded by the same characters except the information separators.
-/

namespace Lending.Text

def isBlank (c : Char) : Bool :=
  let n := c.toNat
  (9 ≤ n && n ≤ 13) || (0x1c ≤ n && n ≤ 0x20) || n == 0x85 || n == 0xa0 || n == 0x1680 ||
    (0x2000 ≤ n && n ≤ 0x200a) || n == 0x2028 || n == 0x2029 || n == 0x202f || n == 0x205f ||
    n == 0x3000

/-- One of the four information separators. -/
def isInformationSeparator (c : Char) : Bool := 0x1c ≤ c.toNat && c.toNat ≤ 0x1f

/-- Drops the characters of a kind from both ends. -/
def trim (kind : Char → Bool) (cs : List Char) : List Char :=
  ((cs.dropWhile kind).reverse.dropWhile kind).reverse

end Lending.Text
