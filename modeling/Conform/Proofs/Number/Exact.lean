import Mathlib.Algebra.Order.Field.Rat
import Mathlib.Algebra.Order.Field.Power
import Mathlib.Tactic.Lemma
import Mathlib.Tactic.NormNum
import Mathlib.Tactic.Ring
import Conform.Number.Binary64

/-!
The values of doubles as rational numbers: a significand of at most 53 bits times a power of two.
-/

namespace Conform

lemma scaled_eq (n e : Int) : scaled n e = (n : ℚ) * 2 ^ e := by
  unfold scaled
  split
  · next h =>
    obtain ⟨k, rfl⟩ := Int.eq_ofNat_of_zero_le h
    simp [Rat.mkRat_eq_div]
  · next h =>
    obtain ⟨k, rfl⟩ : ∃ k : Nat, e = -k := ⟨(-e).toNat, by omega⟩
    simp [Rat.mkRat_eq_div, div_eq_mul_inv]

namespace Binary64

variable {x : Binary64} {n : Int} {negative : Bool} {m : Nat} {e : Int} {q : ℚ}

lemma toRat?_finite (h : Canonical m e) :
    (finite negative m e h).toRat? = some ((if negative then -(m : ℚ) else m) * 2 ^ e) := by
  rw [toRat?, scaled_eq]
  cases negative <;> simp

/-- A value is that of a double with the sign, significand and exponent it has. -/
lemma exists_of_toRat? (h : x.toRat? = some q) : ∃ negative m e, ∃ hc : Canonical m e,
    x = finite negative m e hc ∧ q = (if negative then -(m : ℚ) else m) * 2 ^ e := by
  cases x with
  | nan | infinite => cases h
  | finite negative m e hc =>
    rw [toRat?_finite, Option.some.injEq] at h
    exact ⟨negative, m, e, hc, rfl, h.symm⟩

lemma toRat?_neg (x : Binary64) : x.neg.toRat? = x.toRat?.map (-·) := by
  cases x with
  | nan | infinite => rfl
  | finite negative m e hc =>
    rw [neg, toRat?_finite, toRat?_finite]
    cases negative <;> simp

lemma toInt?_eq_some : x.toInt? = some n ↔ x.toRat? = some (n : ℚ) := by
  unfold toInt?
  cases x.toRat? with
  | none => simp
  | some q =>
    simp only [Option.some.injEq]
    constructor
    · intro h
      split at h
      · next hd =>
        cases h
        exact (Rat.coe_int_num_of_den_eq_one hd).symm
      · cases h
    · rintro rfl
      simp

lemma ofParts_of_canonical (h : Canonical m e) :
    ofParts negative m e = finite negative m e h := dif_pos h

end Binary64

end Conform
