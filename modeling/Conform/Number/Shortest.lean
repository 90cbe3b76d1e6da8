import Conform.Number.Binary64

/-!
The shortest decimal that reads back as a given binary value. The reals that round to a value form
an interval, closed when the significand is even. For one digit, two digits and so on, the two
points of the decimal grid beside the value are tried; the first grid with a point in the interval
wins, and of two points the nearer.
-/

namespace Conform.Shortest

/-- A decimal `digits * 10 ^ exponent`. -/
structure Decimal where
  digits : Nat
  exponent : Int
  deriving DecidableEq, Repr

/-- The value and the interval that rounds to it: `low`, `mid` and `high`, all over `den`. -/
structure Interval where
  low : Nat
  mid : Nat
  high : Nat
  den : Nat
  closed : Bool

/-- The interval of `m * 2 ^ e`. Below a power of two the values lie twice as dense. -/
def intervalOf (m : Nat) (e : Int) : Interval :=
  let below := if m = 0x10000000000000 && e != -1074 then 1 else 2
  let up := Nat.pow 2 (e - 2).toNat
  { low := (4 * m - below) * up
    mid := 4 * m * up
    high := (4 * m + 2) * up
    den := Nat.pow 2 (2 - e).toNat
    closed := m % 2 == 0 }

/-- Whether `num / den * 10 ^ p` is at most the value. -/
def Interval.reaches (i : Interval) (p : Int) : Bool :=
  Nat.pow 10 p.toNat * i.den ≤ i.mid * Nat.pow 10 (-p).toNat

/-- The exponent of the first decimal digit, found from a near guess. -/
def Interval.magnitude (i : Interval) : Int :=
  let guess : Int := ((i.mid.log2 : Int) - (i.den.log2 : Int)) * 30103 / 100000
  if i.reaches (guess + 1) then guess + 1
  else if i.reaches guess then guess
  else guess - 1

/-- Whether `c * 10 ^ s` rounds to the value. -/
def Interval.holds (i : Interval) (c : Nat) (s : Int) : Bool :=
  let x := c * Nat.pow 10 s.toNat * i.den
  let t := Nat.pow 10 (-s).toNat
  if i.closed then i.low * t ≤ x && x ≤ i.high * t else i.low * t < x && x < i.high * t

/-- The better point with `n` digits, if one rounds to the value. -/
def Interval.pick? (i : Interval) (p : Int) (n : Nat) : Option Decimal :=
  let s : Int := p - (n : Int) + 1
  let num := i.mid * Nat.pow 10 (-s).toNat
  let den := i.den * Nat.pow 10 s.toNat
  let c := num / den
  let r := num % den
  match i.holds c s, i.holds (c + 1) s with
  | true, false => some ⟨c, s⟩
  | false, true => some ⟨c + 1, s⟩
  | true, true =>
    if 2 * r < den || (2 * r = den && c % 2 = 0) then some ⟨c, s⟩ else some ⟨c + 1, s⟩
  | false, false => none

/-- Moves trailing zeros into the exponent. -/
def trim : Nat → Decimal → Decimal
  | 0, d => d
  | fuel + 1, d =>
    if d.digits ≠ 0 ∧ d.digits % 10 = 0 then trim fuel ⟨d.digits / 10, d.exponent + 1⟩ else d

/-- The shortest decimal of `m * 2 ^ e`. Seventeen digits always suffice. -/
def ofParts (m : Nat) (e : Int) : Decimal :=
  if m = 0 then ⟨0, 0⟩ else
    let i := intervalOf m e
    let p := i.magnitude
    match (List.range 17).findSome? fun k => i.pick? p (k + 1) with
    | some d => trim 18 d
    | none => ⟨m, 0⟩

end Conform.Shortest
