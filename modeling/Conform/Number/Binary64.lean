/-!
Binary floating point of 64 bits: 53 significant bits, exponents from -1074 on, two zeros, two
infinities and one not-a-number. A finite value is `significand * 2 ^ exponent` with a sign, in
the one form with the smallest exponent that leaves the significand below `2 ^ 53`. Ratios are
rounded to the nearest value, ties to the even significand; there is no rounding anywhere else.
-/

namespace Conform

namespace Binary64

/-- The one spelling of each finite magnitude. -/
def Canonical (significand : Nat) (exponent : Int) : Prop :=
  significand < 0x20000000000000 ∧ -1074 ≤ exponent ∧ exponent ≤ 971 ∧
    (exponent = -1074 ∨ 0x10000000000000 ≤ significand)

instance (m : Nat) (e : Int) : Decidable (Canonical m e) :=
  inferInstanceAs (Decidable (_ ∧ _ ∧ _ ∧ _))

end Binary64

inductive Binary64 where
  | nan
  | infinite (negative : Bool)
  | finite (negative : Bool) (significand : Nat) (exponent : Int)
      (canonical : Binary64.Canonical significand exponent)
  deriving DecidableEq

def scaled (n : Int) (e : Int) : Rat :=
  if 0 ≤ e then mkRat (n * (Nat.pow 2 e.toNat : Nat)) 1 else mkRat n (Nat.pow 2 (-e).toNat)

/-- The integer nearest to `num / den`, of two the even one. -/
def nearest (num : Int) (den : Nat) : Int :=
  let q := num / (den : Int)
  let r := num % (den : Int)
  if 2 * r < (den : Int) then q else if (den : Int) < 2 * r then q + 1 else q + q % 2

namespace Binary64

instance : Inhabited Binary64 := ⟨.nan⟩

def zero (negative : Bool) : Binary64 := .finite negative 0 (-1074) (by decide)

/-- The value of these parts; a magnitude above the greatest is infinite. -/
def ofParts (negative : Bool) (m : Nat) (e : Int) : Binary64 :=
  if h : Canonical m e then .finite negative m e h else .infinite negative

/-- `num / den` in units of `2 ^ e`, as numerator and denominator. -/
def inUnits (num den : Nat) (e : Int) : Nat × Nat :=
  if 0 ≤ e then (num, den * Nat.pow 2 e.toNat) else (num * Nat.pow 2 (-e).toNat, den)

/-- The exponent for a positive ratio: the least that leaves a significand below `2 ^ 53`. -/
def exponentFor (num den : Nat) : Int :=
  -- num / den lies between 2 ^ (k - 1) and 2 ^ (k + 1)
  let k : Int := (num.log2 : Int) - (den.log2 : Int)
  let e : Int := if k - 53 < -1074 then -1074 else k - 53
  let u := inUnits num den e
  if 0x20000000000000 ≤ u.1 / u.2 then e + 1 else e

def ofRatio (negative : Bool) (num den : Nat) : Binary64 :=
  if num = 0 then zero negative else
    let e := exponentFor num den
    let u := inUnits num den e
    let m := (nearest (u.1 : Int) u.2).toNat
    if m = 0x20000000000000 then ofParts negative 0x10000000000000 (e + 1) else ofParts negative m e

/-- The value nearest to `coefficient * 10 ^ exponent`, with a sign. Magnitudes far outside the
range are decided without computing the power. -/
def ofDecimal (negative : Bool) (coefficient : Nat) (exponent : Int) : Binary64 :=
  let bits : Int := coefficient.log2
  if coefficient = 0 then zero negative
  -- 10 ^ (3 * bits / 10) is at most the coefficient, which is below 10 ^ (bits / 3 + 1)
  else if 310 < exponent + 3 * bits / 10 then .infinite negative
  else if exponent + bits / 3 + 1 < -330 then zero negative
  else if 0 ≤ exponent then ofRatio negative (coefficient * Nat.pow 10 exponent.toNat) 1
  else ofRatio negative coefficient (Nat.pow 10 (-exponent).toNat)

def ofInt? (n : Int) : Option Binary64 :=
  match ofRatio (n < 0) n.natAbs 1 with
  | .infinite _ => none
  | x => some x

def toRat? : Binary64 → Option Rat
  | .finite negative m e _ => some (scaled (if negative then -(m : Int) else (m : Int)) e)
  | _ => none

def toInt? (x : Binary64) : Option Int :=
  match x.toRat? with
  | some q => if q.den = 1 then some q.num else none
  | none => none

def neg : Binary64 → Binary64
  | .nan => .nan
  | .infinite negative => .infinite (!negative)
  | .finite negative m e h => .finite (!negative) m e h

@[simp] theorem toRat?_nan : toRat? .nan = none := rfl

@[simp] theorem toRat?_infinite (negative : Bool) : toRat? (.infinite negative) = none := rfl

@[simp] theorem neg_neg (x : Binary64) : x.neg.neg = x := by
  cases x <;> simp [neg]

end Binary64

end Conform
