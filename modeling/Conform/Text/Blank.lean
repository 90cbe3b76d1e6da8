import Conform.Text.Ranges

/-!
White space: the separators of all scripts and the blank control characters.
-/

namespace Conform.Text

def blankBounds : List Nat :=
  [0x9, 0xe, 0x1c, 0x21, 0x85, 0x86, 0xa0, 0xa1, 0x1680, 0x1681, 0x2000, 0x200b, 0x2028, 0x202a,
   0x202f, 0x2030, 0x205f, 0x2060, 0x3000, 0x3001]

def isBlank (c : Nat) : Bool := covers blankBounds c

def trim (cs : List Char) : List Char :=
  let blank := fun c : Char => isBlank c.toNat
  ((cs.dropWhile blank).reverse.dropWhile blank).reverse

/-- A blank when only ASCII counts: tab to carriage return, and the space. -/
def isAsciiBlank (c : Nat) : Bool := covers [0x9, 0xe, 0x20, 0x21] c

end Conform.Text
