import Conform.Number.Basic

/-!
Numerals: how numbers are written and read. Integers are written with all their digits.
Floating-point values are written with the fewest digits that read back, in positional notation
from `1e-4` up to, and without, `1e16`, always with a fraction or an exponent.
-/

namespace Conform

/-- The value of decimal digits, the most significant first. -/
def digitsValue (ds : List Char) : Nat :=
  ds.foldl (fun n d => 10 * n + (d.toNat - 0x30)) 0

/-- An exponent: a sign and at least two digits. -/
def exponentText (p : Int) : String :=
  let ds := Nat.toDigits 10 p.natAbs
  (if p < 0 then "e-" else "e+") ++ String.ofList (if ds.length < 2 then '0' :: ds else ds)

/-- Decimal digits `d₁d₂…` meaning `d₁.d₂… * 10 ^ p`, written out. -/
def decimalText (ds : List Char) (p : Int) : String :=
  if -4 ≤ p ∧ p < 0 then
    "0." ++ String.ofList (List.replicate ((-p).toNat - 1) '0' ++ ds)
  else if 0 ≤ p ∧ p < 16 then
    let n := p.toNat + 1
    let whole := ds.take n ++ List.replicate (n - ds.length) '0'
    let fraction := if ds.length ≤ n then ['0'] else ds.drop n
    String.ofList (whole ++ '.' :: fraction)
  else
    match ds with
    | [] => exponentText p
    | [d] => d.toString ++ exponentText p
    | d :: r => String.ofList (d :: '.' :: r) ++ exponentText p

namespace Binary64

def magnitudeText (m : Nat) (e : Int) : String :=
  let d := Shortest.ofParts m e
  let ds := Nat.toDigits 10 d.digits
  decimalText ds (d.exponent + (ds.length : Int) - 1)

/-- The shortest text that reads back. -/
def text : Binary64 → String
  | .nan => "nan"
  | .infinite negative => if negative then "-inf" else "inf"
  | .finite negative m e _ => (if negative then "-" else "") ++ magnitudeText m e

def ofNumeral (negative : Bool) (whole fraction : List Char) (exponent : Int) : Binary64 :=
  ofDecimal negative (digitsValue (whole ++ fraction)) (exponent - (fraction.length : Int))

end Binary64

namespace Number

def text : Number → String
  | .int n => toString n
  | .double x => x.text

end Number

/-! ### Reading -/

/-- The most digits of a decimal integer that is read or written. -/
def digitLimit : Nat := 4300

/-- Whether the number can be written: an integer beyond the limit on digits cannot. -/
def Number.isWritable : Number → Bool
  | .int n => n.natAbs < Nat.pow 10 digitLimit
  | .double _ => true

theorem Number.isWritable_int {n : Int} :
    (Number.int n).isWritable = true ↔ n.natAbs < Nat.pow 10 digitLimit := by
  simp only [Number.isWritable, decide_eq_true_eq]

theorem Number.isWritable_natCast_eq_false {n : Nat} (h : Nat.pow 10 digitLimit ≤ n) :
    (Number.int n).isWritable = false := by
  rw [← Bool.not_eq_true, Number.isWritable_int, Int.natAbs_natCast]
  exact Nat.not_lt.mpr h

def spanDigits (cs : List Char) : List Char × List Char :=
  (cs.takeWhile Char.isDigit, cs.dropWhile Char.isDigit)

theorem spanDigits_append (cs : List Char) : (spanDigits cs).1 ++ (spanDigits cs).2 = cs :=
  List.takeWhile_append_dropWhile

/-- Digits with single underscores between them, each as its value. -/
def groupedDigits? {α : Type} (value? : Char → Option α) : List Char → Option (List α)
  | [] => none
  | [c] => (value? c).map ([·])
  | c :: '_' :: r => do
    let d ← value? c
    pure (d :: (← groupedDigits? value? r))
  | c :: r => do
    let d ← value? c
    pure (d :: (← groupedDigits? value? r))

/-- A sign that begins a text: whether it is a minus, and what follows. -/
def spanSign : List Char → Bool × List Char
  | '-' :: r => (true, r)
  | '+' :: r => (false, r)
  | cs => (false, cs)

def readExponent? (cs : List Char) : Option Int :=
  let (negative, r) := spanSign cs
  let (ds, rest) := spanDigits r
  if ds.isEmpty || !rest.isEmpty then none
  else some (if negative then -(digitsValue ds : Int) else (digitsValue ds : Int))

def readInt? (cs : List Char) : Option Int :=
  let (negative, r) := spanSign cs
  let (ds, rest) := spanDigits r
  if ds.isEmpty || !rest.isEmpty then none
  else some (if negative then -(digitsValue ds : Int) else (digitsValue ds : Int))

def readBinary64? (cs : List Char) : Option Binary64 :=
  let (negative, r) := spanSign cs
  if r = ['i', 'n', 'f'] then some (.infinite negative)
  else if r = ['n', 'a', 'n'] then some .nan
  else
    let (whole, r) := spanDigits r
    let (fraction, r) := match r with
      | '.' :: r => spanDigits r
      | r => ([], r)
    if whole.isEmpty && fraction.isEmpty then none
    else match r with
      | [] => some (.ofNumeral negative whole fraction 0)
      | c :: r =>
        if c = 'e' || c = 'E' then
          (readExponent? r).map (.ofNumeral negative whole fraction ·)
        else none

end Conform
