import Mathlib.Order.WithBot
import Conform.Number.Basic
import Conform.Proofs.Number.Exact

/-!
The order of numbers. An integer and a finite double have a rational value, the infinities lie below
and above all of these, and not-a-number has no value. Numbers are compared by their values, exactly;
a comparison with not-a-number fails, whichever way it goes, and so it does not equal itself.
-/

namespace Conform.Number

variable {a b c : Number}

/-- The rational numbers with an infinity at either end. -/
abbrev Extended := WithBot (WithTop ℚ)

def value? : Number → Option Extended
  | .int n => some ((n : ℚ) : WithTop ℚ)
  | .double .nan => none
  | .double (.infinite negative) => some (if negative then ⊥ else ⊤)
  | .double (.finite negative m e _) =>
    some (((if negative then -(m : ℚ) else m) * 2 ^ e : ℚ) : WithTop ℚ)

lemma value?_eq_none : a.value? = none ↔ a = .double .nan := by
  cases a with
  | int n => simp [value?]
  | double x => cases x <;> simp [value?]

def Extent.toExtended : Extent → Extended
  | .below => ⊥
  | .exact q => (q : WithTop ℚ)
  | .above => ⊤

lemma Extent.lt_eq_true {x y : Extent} : x.lt y = true ↔ x.toExtended < y.toExtended := by
  have hblt (p q : ℚ) : p.blt q = true ↔ p < q := Iff.rfl
  cases x <;> cases y <;>
    simp [Extent.lt, Extent.toExtended, hblt, lt_top_iff_ne_top, ← WithBot.coe_top]

lemma value?_eq_map (a : Number) : a.value? = a.extent?.map Extent.toExtended := by
  cases a with
  | int n => simp [value?, extent?, Extent.toExtended, Rat.mkRat_one]
  | double x =>
    cases x with
    | nan => rfl
    | infinite negative => cases negative <;> rfl
    | finite negative m e hc =>
      rw [extent?, Binary64.toRat?_finite]
      rfl

lemma toInt?_eq_some {i : Int} : a.toInt? = some i ↔ a.value? = some ((i : ℚ) : WithTop ℚ) := by
  cases a with
  | int n => simp [toInt?, value?]
  | double x =>
    rw [toInt?, Binary64.toInt?_eq_some]
    cases x with
    | nan => simp [value?]
    | infinite negative => cases negative <;> simp [value?, ← WithBot.coe_top]
    | finite negative m e hc => simp [value?, Binary64.toRat?_finite]

lemma lt_eq_true : a.lt b = true ↔ ∃ x y, a.value? = some x ∧ b.value? = some y ∧ x < y := by
  rw [value?_eq_map, value?_eq_map, lt]
  cases a.extent? <;> cases b.extent? <;> simp [Extent.lt_eq_true]

lemma le_eq_true : a.le b = true ↔ ∃ x y, a.value? = some x ∧ b.value? = some y ∧ x ≤ y := by
  rw [value?_eq_map, value?_eq_map, le]
  cases a.extent? <;> cases b.extent? <;> simp [← Bool.not_eq_true, Extent.lt_eq_true]

lemma Extent.toExtended_inj {x y : Extent} : x.toExtended = y.toExtended ↔ x = y := by
  cases x <;> cases y <;> simp [Extent.toExtended, ← WithBot.coe_top]

lemma eqv_eq_true : a.eqv b = true ↔ ∃ x, a.value? = some x ∧ b.value? = some x := by
  rw [value?_eq_map, value?_eq_map, eqv]
  cases a.extent? <;> cases b.extent? <;> simp [Extent.toExtended_inj, eq_comm]

lemma eqv_symm (h : a.eqv b = true) : b.eqv a = true := by
  obtain ⟨x, ha, hb⟩ := eqv_eq_true.mp h
  exact eqv_eq_true.mpr ⟨x, hb, ha⟩

lemma eqv_trans (h : a.eqv b = true) (h' : b.eqv c = true) : a.eqv c = true := by
  obtain ⟨x, ha, hb⟩ := eqv_eq_true.mp h
  obtain ⟨y, hb', hc⟩ := eqv_eq_true.mp h'
  cases hb.symm.trans hb'
  exact eqv_eq_true.mpr ⟨x, ha, hc⟩

lemma eqv_self : a.eqv a = true ↔ a ≠ .double .nan := by
  rw [eqv_eq_true, ne_eq, ← value?_eq_none, ← ne_eq, Option.ne_none_iff_exists']
  simp only [and_self]

end Conform.Number
