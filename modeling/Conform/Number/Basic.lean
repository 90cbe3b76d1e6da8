import Conform.Number.Binary64
import Conform.Number.Shortest

/-!
Numbers of documents and schemas: integers of any size and binary floating point. They are
compared by their exact values; not-a-number compares with nothing.
-/

namespace Conform

/-- A number as it was written: without or with a fraction or exponent. -/
inductive Number where
  | int (n : Int)
  | double (x : Binary64)
  deriving DecidableEq

namespace Number

instance : Inhabited Number := ⟨.int 0⟩

def isFinite : Number → Bool
  | .double .nan | .double (.infinite _) => false
  | _ => true

/-- The exact value of a number, not-a-number apart. -/
inductive Extent where
  | below
  | exact (q : Rat)
  | above
  deriving DecidableEq

namespace Extent

def lt : Extent → Extent → Bool
  | .below, .below => false
  | .below, _ => true
  | .exact p, .exact q => Rat.blt p q
  | .exact _, .above => true
  | _, _ => false

end Extent

def extent? : Number → Option Extent
  | .int n => some (.exact (mkRat n 1))
  | .double .nan => none
  | .double (.infinite negative) => some (if negative then .below else .above)
  | .double (.finite negative m e h) => (Binary64.finite negative m e h).toRat?.map .exact

/-- `a < b` in exact arithmetic. -/
def lt (a b : Number) : Bool :=
  match a.extent?, b.extent? with
  | some x, some y => x.lt y
  | _, _ => false

def le (a b : Number) : Bool :=
  match a.extent?, b.extent? with
  | some x, some y => !y.lt x
  | _, _ => false

/-- `a = b` in exact arithmetic, however they are written. -/
def eqv (a b : Number) : Bool :=
  match a.extent?, b.extent? with
  | some x, some y => decide (x = y)
  | _, _ => false

def isWhole : Number → Bool
  | .int _ => true
  | .double x => x.toInt?.isSome

def toInt? : Number → Option Int
  | .int n => some n
  | .double x => x.toInt?

/-- The number as floating point; an integer beyond the range has none. -/
def toBinary64? : Number → Option Binary64
  | .int n => Binary64.ofInt? n
  | .double x => some x

/-- Remainders below this count as none: the binary value nearest to `1e-8`. -/
def tolerance : Rat := scaled 0x15798ee2308c3a (-79)

/-- The distance of `x` from the multiple of `y` nearest to it, with its sign. -/
def remainder (x y : Rat) : Rat :=
  let q := x / y
  x - mkRat (nearest q.num q.den) 1 * y

def negligible (q : Rat) : Bool :=
  (q.num.natAbs : Int) * (tolerance.den : Int) < tolerance.num * (q.den : Int)

/-- Whether a floating-point value misses every multiple of another. Only finite values have
multiples and only finite or infinite ones can be compared with; a zero divisor has none. -/
def missesMultiple (x y : Binary64) : Bool :=
  match x.toRat?, y with
  | some p, .finite negative m e h =>
    match (Binary64.finite negative m e h).toRat? with
    | some d => if d.num = 0 then true else !negligible (remainder p d)
    | none => true
  | some p, .infinite _ => !negligible p
  | _, _ => true

/-- Whether a number is no multiple of a divisor: exactly for two integers, else within the
tolerance, on the floating-point values of both. -/
def offMultiple : Number → Number → Bool
  | .int n, .int d => n % d != 0
  | a, b =>
    match a.toBinary64?, b.toBinary64? with
    | some x, some y => missesMultiple x y
    | _, _ => true

/-- As `offMultiple`, but an integer divided by the integer zero has no answer. -/
def offMultiple? : Number → Number → Option Bool
  | .int n, .int d => if d = 0 then none else some (offMultiple (.int n) (.int d))
  | a, b => some (offMultiple a b)

@[simp] theorem lt_nan (a : Number) : lt a (.double .nan) = false := by
  unfold lt; cases a.extent? <;> rfl

@[simp] theorem nan_lt (a : Number) : lt (.double .nan) a = false := rfl

end Number

end Conform
