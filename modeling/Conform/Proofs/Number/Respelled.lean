import Conform.Number.Numeral
import Conform.Proofs.Number.Multiple

/-!
Whole numbers, however they are written. An integer and the double of the same value compare alike
with every number, are multiples of the same divisors, and can both be written. The divisors that
are integers must themselves be values of doubles: a double is divided by a double.
-/

namespace Conform.Number

variable {a b c : Number} {n d : Int} {x y : Binary64} {p q : Rat}

/-- Two numbers are one, or an integer and a double of the same value. -/
inductive Respelled : Number → Number → Prop where
  | same (a : Number) : Respelled a a
  | double {n : Int} {x : Binary64} (h : x.toInt? = some n) : Respelled (.int n) (.double x)
  | int {n : Int} {x : Binary64} (h : x.toInt? = some n) : Respelled (.double x) (.int n)

lemma extent?_of_toInt? (h : x.toInt? = some n) :
    extent? (.double x) = extent? (.int n) := by
  rw [Binary64.toInt?_eq_some] at h
  cases x with
  | nan | infinite => cases h
  | finite negative m e hc =>
    simp only [extent?, h, Option.map_some, Rat.mkRat_one]

lemma Respelled.extent? (h : Respelled a b) : a.extent? = b.extent? := by
  cases h with
  | same => rfl
  | double h => exact (extent?_of_toInt? h).symm
  | int h => exact extent?_of_toInt? h

lemma Respelled.lt_left (h : Respelled a b) (c : Number) : a.lt c = b.lt c := by
  rw [lt, lt, h.extent?]

lemma Respelled.lt_right (h : Respelled a b) (c : Number) : c.lt a = c.lt b := by
  rw [lt, lt, h.extent?]

lemma Respelled.le_left (h : Respelled a b) (c : Number) : a.le c = b.le c := by
  rw [le, le, h.extent?]

lemma Respelled.le_right (h : Respelled a b) (c : Number) : c.le a = c.le b := by
  rw [le, le, h.extent?]

lemma Respelled.eqv (h : Respelled a b) (c : Number) : a.eqv c = b.eqv c := by
  rw [Number.eqv, Number.eqv, h.extent?]

lemma Respelled.isWhole (h : Respelled a b) : a.isWhole = b.isWhole := by
  cases h with
  | same => rfl
  | double h | int h => simp only [Number.isWhole, h, Option.isSome_some]

/-- The value of a double has far fewer digits than may be written. -/
lemma isWritable_of_toInt? (h : x.toInt? = some n) : isWritable (.int n) = true := by
  rw [isWritable_int]
  have hten {k l : Nat} (hk : k ≤ l) : 2 ^ k ≤ Nat.pow 10 l :=
    (Nat.pow_le_pow_left (by decide) k).trans (Nat.pow_le_pow_right (by decide) hk)
  have hdigits : 54 + 970 ≤ digitLimit := by decide
  exact ((Binary64.natAbs_lt_of_toInt? h).trans_le Binary64.overflow_le).trans_le (hten hdigits)

lemma Respelled.isWritable (h : Respelled a b) : a.isWritable = b.isWritable := by
  cases h with
  | same => rfl
  | double h => exact isWritable_of_toInt? h
  | int h => exact (isWritable_of_toInt? h).symm

lemma missesMultiple_congr (h : x.toRat? = y.toRat?) (z : Binary64) :
    missesMultiple x z = missesMultiple y z := by
  unfold missesMultiple
  rw [h]

/-- Every divisor that is an integer is the value of a double and not zero. -/
def Divides (c : Number) : Prop := ∀ d, c = .int d → d ≠ 0 ∧ ∃ y : Binary64, y.toInt? = some d

lemma offMultiple_of_toInt? (h : x.toInt? = some n) (hc : Divides c) :
    offMultiple (.double x) c = offMultiple (.int n) c := by
  have hx : x.toRat? = some (n : ℚ) := Binary64.toInt?_eq_some.mp h
  cases c with
  | double z =>
    obtain ⟨y, hy, hvalue⟩ := Binary64.exists_ofInt?_of_toInt? h
    simp only [offMultiple, toBinary64?, hy]
    exact missesMultiple_congr (hx.trans hvalue.symm) z
  | int d =>
    obtain ⟨hd, z, hz⟩ := hc d rfl
    obtain ⟨y, hy, hvalue⟩ := Binary64.exists_ofInt?_of_toInt? hz
    have hdouble : offMultiple (.double x) (.int d) = missesMultiple x y := by
      simp only [offMultiple, toBinary64?, hy]
    have hiff : offMultiple (.double x) (.int d) = false ↔
        offMultiple (.int n) (.int d) = false := by
      rw [hdouble, missesMultiple_eq_false hx hvalue (Int.cast_ne_zero.mpr hd),
        nearMultiple_intCast, offMultiple_int]
    rw [Bool.eq_iff_iff, ← Bool.not_eq_false, ← Bool.not_eq_false]
    exact not_congr hiff

lemma Respelled.offMultiple (h : Respelled a b) (hc : Divides c) :
    a.offMultiple c = b.offMultiple c := by
  cases h with
  | same => rfl
  | double h => exact (offMultiple_of_toInt? h hc).symm
  | int h => exact offMultiple_of_toInt? h hc

end Conform.Number
