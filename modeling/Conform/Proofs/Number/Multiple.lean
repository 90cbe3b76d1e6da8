import Mathlib.Algebra.Order.Field.Basic
import Conform.Number.Basic
import Conform.Proofs.Number.Rounding

/-!
Multiples. The remainder is the distance to the nearest multiple, and no multiple is nearer, so a
number that is not off lies within the tolerance of some multiple. Integers are divided as integers;
as soon as one of the two numbers is a double both are, after rounding.
-/

namespace Conform.Number

open Binary64

variable {a d : Number} {n m : Int} {x y : Binary64} {p q r : ℚ}

/-- Some multiple of `q` is within the tolerance of `p`. -/
def NearMultiple (p q : ℚ) : Prop := ∃ k : Int, |p - k * q| < tolerance

lemma tolerance_eq : tolerance = 0x15798ee2308c3a * 2 ^ (-79 : Int) := by
  rw [tolerance, scaled_eq]
  norm_num

lemma tolerance_pos : 0 < tolerance := by
  rw [tolerance_eq]
  positivity

lemma tolerance_lt_one : tolerance < 1 := by
  rw [tolerance_eq]
  norm_num

lemma negligible_iff : negligible q = true ↔ |q| < tolerance := by
  have hleft : |q| = |(q.num : ℚ)| / q.den := by
    rw [← Nat.abs_cast q.den, ← abs_div, Rat.num_div_den]
  have hden : (0 : ℚ) < q.den := by exact_mod_cast q.den_pos
  have htol : (0 : ℚ) < tolerance.den := by exact_mod_cast tolerance.den_pos
  rw [hleft, ← Rat.num_div_den tolerance, div_lt_div_iff₀ hden htol, negligible, decide_eq_true_eq,
    ← Int.cast_lt (R := ℚ)]
  push_cast
  rfl

/-- Of the whole numbers only the multiples are near to one. -/
lemma nearMultiple_intCast : NearMultiple n m ↔ m ∣ n := by
  constructor
  · rintro ⟨k, hk⟩
    have hlt : |n - k * m| < 1 := by
      have hlt := hk.trans tolerance_lt_one
      exact_mod_cast hlt
    exact ⟨k, by rw [mul_comm]; exact sub_eq_zero.mp (Int.abs_lt_one_iff.mp hlt)⟩
  · rintro ⟨k, rfl⟩
    refine ⟨k, ?_⟩
    rw [Int.cast_mul, mul_comm, sub_self, abs_zero]
    exact tolerance_pos

/-- The remainder is a distance to a multiple, and there is no shorter one. -/
lemma remainder_spec (p : ℚ) (hq : q ≠ 0) :
    (∃ k : Int, remainder p q = p - k * q) ∧ ∀ k : Int, |remainder p q| ≤ |p - k * q| := by
  have hoff (k : Int) : p - k * q = (p / q - k) * q := by
    rw [sub_mul, div_mul_cancel₀ _ hq]
  have hnear : IsNearest (p / q) (nearest (p / q).num (p / q).den) :=
    isNearest_nearest (p / q).den_pos (Rat.mul_den_eq_num _)
  have hremainder : remainder p q = p - nearest (p / q).num (p / q).den * q := by
    rw [remainder, Rat.mkRat_one]
  refine ⟨⟨_, hremainder⟩, fun k => ?_⟩
  rw [hremainder, hoff, hoff, abs_mul, abs_mul]
  exact mul_le_mul_of_nonneg_right (hnear.least k) (abs_nonneg q)

lemma negligible_remainder_iff (hq : q ≠ 0) :
    negligible (remainder p q) = true ↔ NearMultiple p q := by
  obtain ⟨⟨k, hk⟩, hleast⟩ := remainder_spec p hq
  rw [negligible_iff]
  constructor
  · intro h
    exact ⟨k, hk ▸ h⟩
  · rintro ⟨k, hlt⟩
    exact (hleast k).trans_lt hlt

lemma missesMultiple_eq_false (hx : x.toRat? = some p) (hy : y.toRat? = some q) (hq : q ≠ 0) :
    missesMultiple x y = false ↔ NearMultiple p q := by
  cases y with
  | nan | infinite => cases hy
  | finite negative m e hc =>
    simp only [missesMultiple, hx, hy, if_neg (Rat.num_ne_zero.mpr hq), Bool.not_eq_false',
      negligible_remainder_iff hq]

/-! ### Division of numbers -/

def toRat? : Number → Option ℚ
  | .int n => some n
  | .double x => x.toRat?

def bothInt : Number → Number → Bool
  | .int _, .int _ => true
  | _, _ => false

lemma bothInt_eq_true : bothInt a d = true ↔ ∃ n m, a = .int n ∧ d = .int m := by
  cases a <;> cases d <;> simp [bothInt]

lemma offMultiple_int : offMultiple (.int n) (.int m) = false ↔ m ∣ n := by
  rw [offMultiple, bne_eq_false_iff_eq, Int.dvd_iff_emod_eq_zero]

lemma offMultiple_eq (h : bothInt a d = false) :
    offMultiple a d = match a.toBinary64?, d.toBinary64? with
      | some x, some y => missesMultiple x y
      | _, _ => true := by
  cases a with
  | int =>
    cases d with
    | int => cases h
    | double => rfl
  | double => rfl

/-- A finite number has the double nearest to it, unless it is too large for one. -/
lemma toBinary64?_spec (h : a.toRat? = some p) :
    (|p| < overflow ∧ ∃ z r, a.toBinary64? = some z ∧ RoundsTo p z r) ∨
      ((overflow : ℚ) ≤ |p| ∧ a.toBinary64? = none) := by
  cases a with
  | int n =>
    cases h
    rw [← Int.cast_abs, ← Nat.cast_natAbs, Nat.cast_lt, Nat.cast_le]
    exact Binary64.ofInt?_spec n
  | double x => exact Or.inl ⟨abs_lt_overflow h, x, p, rfl, .of_toRat? h⟩

lemma pos_of_roundsTo (hd : d.toRat? = some q) (hq : 0 < q) (h : RoundsTo q y r) :
    0 < r := by
  obtain ⟨x, c, hx, hc, hle⟩ : ∃ (x : Binary64) (c : ℚ), x.toRat? = some c ∧ 0 < c ∧ c ≤ q := by
    cases d with
    | int n =>
      cases hd
      have hone : 0 < n := by exact_mod_cast hq
      refine ⟨.finite false (2 ^ 52) (-52) (by decide), 1, ?_, one_pos, ?_⟩
      · rw [Binary64.toRat?_finite]
        norm_num
      · exact_mod_cast hone
    | double x => exact ⟨x, q, hd, hq, le_rfl⟩
  have hle' := (le_abs_self _).trans (h.least hx)
  rw [abs_of_nonneg (sub_nonneg.mpr hle)] at hle'
  linarith

/-- A number is divided by another as one double by another, if both are near enough to doubles. -/
lemma offMultiple_rounded (ha : a.toRat? = some p) (hd : d.toRat? = some q) (hq : 0 < q)
    (hnot : bothInt a d = false) (hp : |p| < overflow) (hlt : |q| < overflow) :
    ∃ x y r s, RoundsTo p x r ∧ RoundsTo q y s ∧
      (a.offMultiple d = false ↔ NearMultiple r s) := by
  rcases toBinary64?_spec ha with ⟨-, x, r, hx, hr⟩ | ⟨hlarge, -⟩
  · rcases toBinary64?_spec hd with ⟨-, y, s, hy, hs⟩ | ⟨hlarge, -⟩
    · refine ⟨x, y, r, s, hr, hs, ?_⟩
      simp only [offMultiple_eq hnot, hx, hy]
      exact missesMultiple_eq_false hr.value hs.value (pos_of_roundsTo hd hq hs).ne'
    · exact absurd hlt (not_lt.mpr hlarge)
  · exact absurd hp (not_lt.mpr hlarge)

lemma offMultiple_large (ha : a.toRat? = some p) (hd : d.toRat? = some q)
    (hnot : bothInt a d = false) (hlarge : (overflow : ℚ) ≤ |p| ∨ (overflow : ℚ) ≤ |q|) :
    a.offMultiple d = true := by
  rw [offMultiple_eq hnot]
  rcases toBinary64?_spec ha with ⟨hp, x, r, hx, -⟩ | ⟨-, hx⟩
  · rcases toBinary64?_spec hd with ⟨hq, -⟩ | ⟨-, hy⟩
    · exact absurd hlarge (not_or.mpr ⟨not_le.mpr hp, not_le.mpr hq⟩)
    · simp only [hx, hy]
  · simp only [hx]

def IsDouble (p : ℚ) : Prop := ∃ x : Binary64, x.toRat? = some p

/-- Where nothing is rounded, the question is the one asked of the two values. -/
lemma offMultiple_exact (ha : a.toRat? = some p) (hd : d.toRat? = some q) (hq : 0 < q)
    (h : bothInt a d = true ∨ IsDouble p ∧ IsDouble q) :
    a.offMultiple d = false ↔ NearMultiple p q := by
  cases hboth : bothInt a d with
  | true =>
    obtain ⟨n, m, rfl, rfl⟩ := bothInt_eq_true.mp hboth
    cases ha
    cases hd
    rw [offMultiple_int, nearMultiple_intCast]
  | false =>
    obtain ⟨⟨x, hx⟩, y, hy⟩ := h.resolve_left (by rw [hboth]; exact Bool.false_ne_true)
    obtain ⟨_, _, r, s, hr, hs, hiff⟩ :=
      offMultiple_rounded ha hd hq hboth (abs_lt_overflow hx) (abs_lt_overflow hy)
    rwa [hr.eq hx, hs.eq hy] at hiff

/-- **Multiples.** Of two integers, and of two numbers that are the values of doubles, one is not off
exactly if it lies within the tolerance of a multiple of the other; for integers that is a multiple
itself. Otherwise this is so of the doubles nearest to the two, and a number beyond all doubles is
off. -/
theorem offMultiple_eq_false (ha : a.toRat? = some p) (hd : d.toRat? = some q) (hq : 0 < q) :
    (bothInt a d = true ∨ IsDouble p ∧ IsDouble q →
      (a.offMultiple d = false ↔ NearMultiple p q)) ∧
    (∀ n m, a = .int n → d = .int m → (a.offMultiple d = false ↔ m ∣ n)) ∧
    (bothInt a d = false →
      ((overflow : ℚ) ≤ |p| ∨ (overflow : ℚ) ≤ |q| → a.offMultiple d = true) ∧
      (|p| < overflow → |q| < overflow → ∃ x y r s, RoundsTo p x r ∧ RoundsTo q y s ∧
        (a.offMultiple d = false ↔ NearMultiple r s))) := by
  refine ⟨offMultiple_exact ha hd hq, ?_, fun hnot =>
    ⟨offMultiple_large ha hd hnot, offMultiple_rounded ha hd hq hnot⟩⟩
  rintro n m rfl rfl
  exact offMultiple_int

/-- Three is two times one and a half. -/
theorem offMultiple_eq_false_three :
    let threeHalves : Binary64 := .finite false (3 * 2 ^ 51) (-52) (by decide)
    (Number.int 3).toRat? = some 3 ∧ (Number.double threeHalves).toRat? = some (3 / 2) ∧
      (0 : ℚ) < 3 / 2 ∧ (Number.int 3).offMultiple (.double threeHalves) = false := by
  intro threeHalves
  have hvalue : threeHalves.toRat? = some (3 / 2) := by
    rw [toRat?_finite]
    norm_num
  have hexact : IsDouble 3 := by
    refine ⟨.finite false (3 * 2 ^ 51) (-51) (by decide), ?_⟩
    rw [toRat?_finite]
    norm_num
  have hnear : NearMultiple 3 (3 / 2) := by
    refine ⟨2, ?_⟩
    norm_num
    exact tolerance_pos
  have h := offMultiple_eq_false (a := .int 3) (d := .double threeHalves) rfl hvalue (by norm_num)
  exact ⟨rfl, hvalue, by norm_num, (h.1 (Or.inr ⟨hexact, _, hvalue⟩)).mpr hnear⟩

/-- An odd number of 54 bits is rounded to an even one, so it counts as a multiple of two, and is
none. -/
theorem offMultiple_odd :
    let two : Binary64 := .finite false (2 ^ 52) (-51) (by decide)
    two.toRat? = some 2 ∧ ¬((Number.int 0x20000000000001).offMultiple (.double two) = false ↔
      NearMultiple (0x20000000000001 : Int) (2 : Int)) := by
  intro two
  have hvalue : two.toRat? = some 2 := by
    rw [toRat?_finite]
    norm_num
  have hoff : (Number.int 0x20000000000001).offMultiple (.double two) = false := by
    decide +kernel
  have hnot : ¬NearMultiple (0x20000000000001 : Int) (2 : Int) := by
    rw [nearMultiple_intCast]
    decide
  exact ⟨hvalue, fun h => hnot (h.mp hoff)⟩

end Conform.Number
