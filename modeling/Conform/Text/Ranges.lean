/-!
Sets of code points as ascending boundaries: `[a, b, c, d]` stands for the code points from `a` up
to, and without, `b`, and from `c` up to, and without, `d`.
-/

namespace Conform.Text

/-- Membership in a set given by its boundaries. -/
def covers : List Nat → Nat → Bool
  | lo :: hi :: r, c => if c < lo then false else if c < hi then true else covers r c
  | _, _ => false

/-- The first code point of the range that holds `c`. -/
def coveringStart? : List Nat → Nat → Option Nat
  | lo :: hi :: r, c => if c < lo then none else if c < hi then some lo else coveringStart? r c
  | _, _ => none

@[simp] theorem covers_nil (c : Nat) : covers [] c = false := rfl

end Conform.Text
