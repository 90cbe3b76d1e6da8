import Mathlib.Algebra.Order.Group.Unbundled.Int
import Mathlib.Tactic.Linarith
import Conform.Proofs.Number.Exact

/-!
Rounding. A ratio is rounded to the integer nearest to it, and a whole number to the double nearest
to it; of two that are as near, the even one is taken. A whole number is counted in units that leave
it 53 significant bits, and the count is rounded; doubles with larger units are multiples of these,
and those with smaller ones lie below all counts of 53 bits. So a whole number that is a double stays
what it is.
-/

namespace Conform

/-- An integer as near to a number as any other, and even if another is as near. -/
structure IsNearest (r : ℚ) (n : Int) : Prop where
  least : ∀ k : Int, |r - n| ≤ |r - k|
  even : ∀ k : Int, |r - n| = |r - k| → k ≠ n → Even n

section Integers

variable {num n : Int} {den : Nat} {r : ℚ}

/-- The remainder of the division decides to which side a ratio is rounded. -/
lemma nearest_cases (num : Int) (den : Nat) :
    (2 * (num % den) ≤ den ∧ nearest num den = num / den ∧
        (2 * (num % den) = den → num / den % 2 = 0)) ∨
      ((den : Int) ≤ 2 * (num % den) ∧ nearest num den = num / den + 1 ∧
        (2 * (num % den) = den → (num / den + 1) % 2 = 0)) := by
  unfold nearest
  simp only
  split
  · exact Or.inl (by omega)
  · split
    · exact Or.inr (by omega)
    · omega

/-- An integer other than the nearest is farther off, or as far off and the nearest even. -/
lemma nearest_spec (hden : 0 < den) {k : Int} (hk : k ≠ nearest num den) :
    |num - nearest num den * den| < |num - k * den| ∨
      |num - nearest num den * den| = |num - k * den| ∧ nearest num den % 2 = 0 := by
  have hdiv := Int.emod_add_mul_ediv num den
  have hlow := Int.emod_nonneg num (show (den : Int) ≠ 0 by omega)
  have hhigh := Int.emod_lt_of_pos num (show (0 : Int) < den by omega)
  -- how far off an integer is, by its distance from the quotient
  have hoff (j : Int) : num - (num / den + j) * den = num % den - j * den := by linarith
  obtain ⟨j, rfl⟩ : ∃ j, k = num / den + j := ⟨k - num / den, by omega⟩
  have hup : 1 ≤ j → (den : Int) ≤ j * den := fun hj => le_mul_of_one_le_left (by omega) hj
  have hup2 : 2 ≤ j → 2 * (den : Int) ≤ j * den := fun hj =>
    mul_le_mul_of_nonneg_right hj (by omega)
  have hdown : j ≤ -1 → j * den ≤ -(den : Int) := fun hj => by
    have := mul_le_mul_of_nonneg_right hj (show (0 : Int) ≤ den by omega)
    omega
  have hnone : j = 0 → j * den = 0 := fun hj => by rw [hj, zero_mul]
  rw [hoff j]
  have habs := abs_cases (num % den - j * den)
  rcases nearest_cases num den with ⟨hside, heq, htie⟩ | ⟨hside, heq, htie⟩
  · have hself := hoff 0
    rw [add_zero, zero_mul, sub_zero] at hself
    rw [heq] at hk ⊢
    rw [hself, abs_of_nonneg hlow]
    omega
  · have hself := hoff 1
    rw [one_mul] at hself
    rw [heq] at hk ⊢
    rw [hself, abs_of_neg (by omega)]
    omega

lemma isNearest_nearest (hden : 0 < den) (hr : r * den = num) :
    IsNearest r (nearest num den) := by
  have hpos : (0 : ℚ) < den := by exact_mod_cast hden
  have hoff (k : Int) : |r - k| * den = ((|num - k * den| : Int) : ℚ) := by
    push_cast
    rw [← hr, ← sub_mul, abs_mul, abs_of_pos hpos]
  constructor
  · intro k
    rcases eq_or_ne k (nearest num den) with rfl | hk
    · exact le_rfl
    refine le_of_mul_le_mul_right ?_ hpos
    rw [hoff, hoff]
    rcases nearest_spec hden hk with h | ⟨h, -⟩
    · exact_mod_cast h.le
    · exact_mod_cast h.le
  · intro k heq hk
    have hoffs : |num - nearest num den * den| = |num - k * den| := by
      have h := congrArg (· * (den : ℚ)) heq
      simp only [hoff] at h
      exact_mod_cast h
    rcases nearest_spec hden hk with h | ⟨-, h⟩
    · exact absurd hoffs h.ne
    · exact Int.even_iff.mpr h

/-- The nearest integer is at most half off. -/
lemma IsNearest.half (h : IsNearest r n) : 2 * (r - n) ≤ 1 ∧ -1 ≤ 2 * (r - n) := by
  have hup := sq_le_sq.mpr (h.least (n + 1))
  have hdown := sq_le_sq.mpr (h.least (n - 1))
  push_cast at hup hdown
  constructor <;> linarith

/-- The nearest integer is at least an even one for all from halfway below it. -/
lemma IsNearest.le_iff (h : IsNearest r n) {k : Int} (hk : Even k) :
    k ≤ n ↔ 2 * (k : ℚ) - 1 ≤ 2 * r := by
  obtain ⟨hup, hdown⟩ := h.half
  constructor
  · intro hle
    have hle : (k : ℚ) ≤ n := by exact_mod_cast hle
    linarith
  · intro hle
    by_contra hlt
    have hlt : (n : ℚ) + 1 ≤ k := by exact_mod_cast Int.add_one_le_iff.mpr (not_le.mp hlt)
    have hhalf : r = k - 1 / 2 := by linarith
    have hlast : n = k - 1 := by
      have : (n : ℚ) = ((k - 1 : Int) : ℚ) := by push_cast; linarith
      exact_mod_cast this
    have htie : |r - n| = |r - k| := by
      rw [hhalf, hlast]
      push_cast
      rw [← abs_neg]
      ring_nf
    have heven := h.even k htie (by omega)
    rw [Int.even_iff] at heven hk
    omega

end Integers

namespace Binary64

variable {x z : Binary64} {n : Int} {negative : Bool} {m num : Nat} {e : Int} {r p q : ℚ}

/-! ### Units -/

/-- The size of the units that leave a whole number 53 significant bits. -/
def unit (num : Nat) : ℚ := 2 ^ ((num.log2 : Int) - 52)

lemma unit_pos (num : Nat) : 0 < unit num := zpow_pos two_pos _

/-- Rounding gives a whole number the exponent that leaves 53 significant bits. -/
lemma exponentFor_one (h : num ≠ 0) : exponentFor num 1 = (num.log2 : Int) - 52 := by
  have hlow : 2 ^ num.log2 ≤ num := Nat.log2_self_le h
  have hbits : (0x20000000000000 : Nat) = 2 ^ 53 := by norm_num
  have hdepth : ¬(num.log2 : Int) - 53 < -1074 := by omega
  have hlog : ((Nat.log2 1 : Nat) : Int) = 0 := by decide
  have hunits : 0x20000000000000 ≤ (inUnits num 1 (num.log2 - 53)).1 /
      (inUnits num 1 (num.log2 - 53)).2 := by
    unfold inUnits
    split
    · next he =>
      have hk : ((num.log2 : Int) - 53).toNat = num.log2 - 53 := by omega
      have hsplit : 2 ^ 53 * 2 ^ (num.log2 - 53) = 2 ^ num.log2 := by
        rw [← Nat.pow_add]
        congr 1
        omega
      rw [hk, hbits, one_mul]
      exact (Nat.le_div_iff_mul_le (Nat.pow_pos (by decide))).mpr (hsplit.trans_le hlow)
    · next he =>
      have hk : (-((num.log2 : Int) - 53)).toNat = 53 - num.log2 := by omega
      have hsplit : 2 ^ num.log2 * 2 ^ (53 - num.log2) = 2 ^ 53 := by
        rw [← Nat.pow_add]
        congr 1
        omega
      rw [hk, hbits, Nat.div_one, ← hsplit]
      exact Nat.mul_le_mul_right _ hlow
  simp only [exponentFor, hlog, sub_zero, if_neg hdepth, if_pos hunits]
  omega

lemma inUnits_spec (num : Nat) (e : Int) : 0 < (inUnits num 1 e).2 ∧
    (num : ℚ) / 2 ^ e * (inUnits num 1 e).2 = ((inUnits num 1 e).1 : Int) := by
  unfold inUnits
  split
  · next he =>
    obtain ⟨k, rfl⟩ := Int.eq_ofNat_of_zero_le he
    refine ⟨by simp, ?_⟩
    simp
  · next he =>
    obtain ⟨k, rfl⟩ : ∃ k : Nat, e = -k := ⟨(-e).toNat, by omega⟩
    refine ⟨Nat.one_pos, ?_⟩
    simp

lemma units_bounds (hn : num ≠ 0) : 2 ^ 52 ≤ num / unit num ∧ num / unit num < 2 ^ 53 := by
  have hsplit (k : Nat) : (2 : ℚ) ^ k * unit num = 2 ^ ((k : Int) + (num.log2 - 52)) := by
    rw [unit, zpow_add₀ two_ne_zero, zpow_natCast]
  rw [le_div_iff₀ (unit_pos num), div_lt_iff₀ (unit_pos num), hsplit, hsplit]
  constructor
  · have hlow : ((2 ^ num.log2 : Nat) : ℚ) ≤ num := by exact_mod_cast Nat.log2_self_le hn
    have hexp : ((52 : Nat) : Int) + (num.log2 - 52) = num.log2 := by omega
    rw [hexp, zpow_natCast]
    exact_mod_cast hlow
  · have hhigh : (num : ℚ) < ((2 ^ (num.log2 + 1) : Nat) : ℚ) := by
      exact_mod_cast Nat.lt_log2_self
    have hexp : ((53 : Nat) : Int) + (num.log2 - 52) = (num.log2 + 1 : Nat) := by omega
    rw [hexp, zpow_natCast]
    exact_mod_cast hhigh

/-- A whole number as the nearest count of its units. -/
structure Counted (num count : Nat) : Prop where
  nearest : IsNearest (num / unit num) count
  low : 2 ^ 52 ≤ count
  high : count ≤ 2 ^ 53

lemma Counted.of_isNearest {count : Int} (hn : num ≠ 0) (h : IsNearest (num / unit num) count) :
    ∃ q : Nat, count = q ∧ Counted num q := by
  obtain ⟨hlow, hhigh⟩ := units_bounds hn
  obtain ⟨hup, hdown⟩ := h.half
  have hlow' : (2 : Int) ^ 52 < count + 1 := by
    have : (2 : ℚ) ^ 52 < count + 1 := by linarith
    exact_mod_cast this
  have hhigh' : count < (2 : Int) ^ 53 + 1 := by
    have : (count : ℚ) < 2 ^ 53 + 1 := by linarith
    exact_mod_cast this
  obtain ⟨q, rfl⟩ := Int.eq_ofNat_of_zero_le (show 0 ≤ count by omega)
  exact ⟨q, rfl, h, by omega, by omega⟩

/-- A whole number is rounded by its count of units; one of 54 bits is halved, and its units doubled. -/
lemma exists_ofRatio_eq (negative : Bool) (hn : num ≠ 0) : ∃ count, Counted num count ∧
    ofRatio negative num 1 =
      if count = 2 ^ 53 then ofParts negative (2 ^ 52) ((num.log2 : Int) - 52 + 1)
      else ofParts negative count ((num.log2 : Int) - 52) := by
  obtain ⟨hden, hratio⟩ := inUnits_spec num ((num.log2 : Int) - 52)
  obtain ⟨count, hcount, hcounted⟩ := Counted.of_isNearest hn (isNearest_nearest hden hratio)
  refine ⟨count, hcounted, ?_⟩
  simp only [ofRatio, if_neg hn, exponentFor_one hn, hcount, Int.toNat_natCast]
  rfl

/-! ### To doubles -/

/-- The digits of a finite double, with its exponent of two left away. -/
def significand : Binary64 → Nat
  | .finite _ m _ _ => m
  | _ => 0

@[simp] lemma significand_neg (z : Binary64) : z.neg.significand = z.significand := by
  cases z <;> rfl

/-- A double of the value `p`, as near to `r` as any other; of an even significand, if another is as
near. -/
structure RoundsTo (r : ℚ) (z : Binary64) (p : ℚ) : Prop where
  value : z.toRat? = some p
  least : ∀ {x : Binary64} {q}, x.toRat? = some q → |r - p| ≤ |r - q|
  even : ∀ {x : Binary64} {q}, x.toRat? = some q → |r - p| = |r - q| → q ≠ p → Even z.significand

lemma RoundsTo.of_toRat? (h : x.toRat? = some q) : RoundsTo q x q where
  value := h
  least := fun _ => by rw [sub_self, abs_zero]; exact abs_nonneg _
  even := fun _ heq hne => by
    rw [sub_self, abs_zero, eq_comm, abs_eq_zero, sub_eq_zero] at heq
    exact absurd heq.symm hne

lemma RoundsTo.eq (h : RoundsTo r z p) (hx : x.toRat? = some r) : p = r := by
  have hle := h.least hx
  rw [sub_self, abs_zero, abs_nonpos_iff, sub_eq_zero] at hle
  exact hle.symm

lemma RoundsTo.neg (h : RoundsTo r z p) : RoundsTo (-r) z.neg (-p) := by
  have hflip {x : Binary64} {q : ℚ} (hx : x.toRat? = some q) : x.neg.toRat? = some (-q) := by
    rw [toRat?_neg, hx, Option.map_some]
  have hoff (q : ℚ) : |-r - q| = |r - -q| := by rw [← abs_neg]; ring_nf
  refine ⟨hflip h.value, fun hx => ?_, fun hx heq hne => ?_⟩
  · rw [hoff, hoff, InvolutiveNeg.neg_neg]
    exact h.least (hflip hx)
  · rw [hoff, hoff, InvolutiveNeg.neg_neg] at heq
    rw [significand_neg]
    exact h.even (hflip hx) heq fun h => hne (by rw [← h, InvolutiveNeg.neg_neg])

/-! ### Whole numbers -/

/-- The least whole number that is rounded to an infinity: halfway from the greatest double to the
power of two above it. -/
def overflow : Nat := 0x3fffffffffffff * 2 ^ 970

lemma overflow_pos : 0 < overflow := by
  unfold overflow
  positivity

lemma overflow_le : overflow ≤ 2 ^ (54 + 970) := by
  have hle (k : Nat) : 0x3fffffffffffff * 2 ^ k ≤ 2 ^ (54 + k) := by
    rw [Nat.pow_add]
    exact Nat.mul_le_mul_right _ (by decide)
  exact hle 970

lemma overflow_eq : (overflow : ℚ) = (2 ^ 54 - 1) * 2 ^ (970 : Int) := by
  rw [overflow, Nat.cast_mul, Nat.cast_pow, Nat.cast_ofNat, ← zpow_natCast]
  norm_num

lemma abs_lt_overflow (h : x.toRat? = some q) : |q| < overflow := by
  obtain ⟨negative, m, e, hc, -, rfl⟩ := exists_of_toRat? h
  have hm : (m : ℚ) ≤ 2 ^ 53 - 1 := by
    have hm : (m : ℚ) + 1 ≤ 2 ^ 53 := by exact_mod_cast Nat.succ_le_of_lt hc.1
    linarith
  have he : (2 : ℚ) ^ e ≤ 2 * 2 ^ (970 : Int) := by
    rw [mul_comm, ← zpow_add_one₀ two_ne_zero]
    exact zpow_le_zpow_right₀ one_le_two hc.2.2.1
  have hpos : (0 : ℚ) < 2 ^ (970 : Int) := zpow_pos two_pos _
  calc |(if negative then -(m : ℚ) else m) * 2 ^ e| = m * 2 ^ e := by
        rw [abs_mul, abs_of_pos (zpow_pos (two_pos (α := ℚ)) e)]
        cases negative <;> simp
    _ ≤ (2 ^ 53 - 1) * (2 * 2 ^ (970 : Int)) :=
        mul_le_mul hm he (zpow_pos two_pos e).le (by norm_num)
    _ = (2 ^ 54 - 2) * 2 ^ (970 : Int) := by
        rw [← mul_assoc]
        norm_num
    _ < (2 ^ 54 - 1) * 2 ^ (970 : Int) := mul_lt_mul_of_pos_right (by norm_num) hpos
    _ = overflow := overflow_eq.symm

/-- Doubles are multiples of the units, or lie below the counts of 53 bits. -/
lemma multiple_or_lt (h : x.toRat? = some q) (num : Nat) :
    (∃ k : Int, q = k * unit num) ∨ q < 2 ^ 52 * unit num := by
  obtain ⟨negative, m, e, hc, -, rfl⟩ := exists_of_toRat? h
  rcases le_or_gt ((num.log2 : Int) - 52) e with he | he
  · obtain ⟨k, rfl⟩ : ∃ k : Nat, e = k + (num.log2 - 52) := ⟨(e - (num.log2 - 52)).toNat, by omega⟩
    refine Or.inl ⟨(if negative then -(m : Int) else m) * 2 ^ k, ?_⟩
    rw [zpow_add₀ two_ne_zero, zpow_natCast, unit]
    cases negative <;> simp [mul_assoc]
  · have hm : (m : ℚ) < 2 ^ 53 := by exact_mod_cast hc.1
    have hsign : (if negative then -(m : ℚ) else m) ≤ m := by
      cases negative
      · exact le_rfl
      · simp
    have hunit : (2 : ℚ) * 2 ^ e ≤ unit num := by
      rw [unit, mul_comm, ← zpow_add_one₀ two_ne_zero]
      exact zpow_le_zpow_right₀ one_le_two (by omega)
    right
    calc (if negative then -(m : ℚ) else m) * 2 ^ e
        < 2 ^ 53 * 2 ^ e := mul_lt_mul_of_pos_right (hsign.trans_lt hm) (zpow_pos two_pos e)
      _ = 2 ^ 52 * (2 * 2 ^ e) := by ring
      _ ≤ 2 ^ 52 * unit num := mul_le_mul_of_nonneg_left hunit (by norm_num)

lemma off_eq (num : Nat) (k : ℚ) : |num - k * unit num| = |num / unit num - k| * unit num := by
  have hpos := unit_pos num
  calc |num - k * unit num| = |(num / unit num - k) * unit num| := by
        rw [sub_mul, div_mul_cancel₀ _ hpos.ne']
    _ = |num / unit num - k| * unit num := by rw [abs_mul, abs_of_pos hpos]

section Count

variable {count : Nat} (h : Counted num count)
include h

lemma Counted.off_le (k : Int) : |num - count * unit num| ≤ |num - k * unit num| := by
  rw [off_eq, off_eq]
  exact mul_le_mul_of_nonneg_right (h.nearest.least k) (unit_pos num).le

/-- No double is nearer to a whole number than its count of units; if one is as near, the count is
even. -/
lemma Counted.nearest_double (hn : num ≠ 0) (hx : x.toRat? = some q) :
    |num - count * unit num| < |num - q| ∨
      |num - count * unit num| = |num - q| ∧ (q ≠ count * unit num → Even count) := by
  have hpos := unit_pos num
  rcases multiple_or_lt hx num with ⟨k, rfl⟩ | hq
  · refine (h.off_le k).lt_or_eq.imp_right fun heq => ⟨heq, fun hne => ?_⟩
    rw [off_eq, off_eq, mul_left_inj' hpos.ne'] at heq
    have heven := h.nearest.even k heq fun hk => hne (by rw [hk, Int.cast_natCast])
    exact_mod_cast heven
  · left
    have hlow : 2 ^ 52 * unit num ≤ num := (le_div_iff₀ hpos).mp (units_bounds hn).1
    have hcount := h.off_le (2 ^ 52)
    rw [Int.cast_pow, Int.cast_ofNat] at hcount
    calc |num - count * unit num| ≤ |num - 2 ^ 52 * unit num| := hcount
      _ = num - 2 ^ 52 * unit num := abs_of_nonneg (sub_nonneg.mpr hlow)
      _ < num - q := sub_lt_sub_left hq _
      _ ≤ |num - q| := le_abs_self _

/-- A double of the counted value, and of an even significand for an even count, is the nearest. -/
lemma Counted.roundsTo (hn : num ≠ 0) (hz : z.toRat? = some (count * unit num))
    (heven : Even count → Even z.significand) : RoundsTo num z (count * unit num) where
  value := hz
  least := fun hx => by
    rcases h.nearest_double hn hx with hlt | ⟨heq, -⟩
    · exact hlt.le
    · exact heq.le
  even := fun hx heq hne => by
    rcases h.nearest_double hn hx with hlt | ⟨-, himp⟩
    · exact absurd heq hlt.ne
    · exact heven (himp hne)

/-- A count has 54 bits for the upper half of the last unit below that. -/
lemma Counted.eq_high_iff : count = 2 ^ 53 ↔ (2 ^ 54 - 1) * unit num ≤ 2 * num := by
  have hhigh := h.high
  have heven : Even ((2 : Int) ^ 53) := by decide
  have hiff := h.nearest.le_iff heven
  rw [Int.cast_pow, Int.cast_ofNat, ← mul_div_assoc, le_div_iff₀ (unit_pos num), ← pow_succ']
    at hiff
  rw [← hiff]
  omega

/-- The exponents that are too large belong to the whole numbers from the overflow on. -/
lemma Counted.overflow_le_iff (hn : num ≠ 0) : overflow ≤ num ↔
    971 ≤ (num.log2 : Int) - 52 ∧ (count = 2 ^ 53 ∨ 972 ≤ (num.log2 : Int) - 52) := by
  obtain ⟨hlow, hhigh⟩ := units_bounds hn
  rw [le_div_iff₀ (unit_pos num)] at hlow
  rw [div_lt_iff₀ (unit_pos num)] at hhigh
  have hpos : (0 : ℚ) < 2 ^ (970 : Int) := zpow_pos two_pos _
  have hshift (k : Int) : (2 : ℚ) ^ (970 + k) = 2 ^ (970 : Int) * 2 ^ k := zpow_add₀ two_ne_zero _ _
  rw [← Nat.cast_le (α := ℚ), overflow_eq]
  rcases lt_trichotomy ((num.log2 : Int) - 52) 971 with hlt | heq | hgt
  · have hunit : unit num ≤ 2 ^ (970 : Int) := zpow_le_zpow_right₀ one_le_two (by omega)
    have hfew : (num : ℚ) < (2 ^ 54 - 1) * 2 ^ (970 : Int) := by
      calc (num : ℚ) < 2 ^ 53 * unit num := hhigh
        _ ≤ 2 ^ 53 * 2 ^ (970 : Int) := mul_le_mul_of_nonneg_left hunit (by norm_num)
        _ ≤ (2 ^ 54 - 1) * 2 ^ (970 : Int) := mul_le_mul_of_nonneg_right (by norm_num) hpos.le
    exact iff_of_false (not_le.mpr hfew) (by omega)
  · have hunit : unit num = 2 ^ (970 : Int) * 2 := by
      rw [unit, heq, show (971 : Int) = 970 + 1 from rfl, hshift, zpow_one]
    have hhalf : (2 ^ 54 - 1) * unit num ≤ 2 * num ↔
        (2 ^ 54 - 1) * 2 ^ (970 : Int) ≤ (num : ℚ) := by
      rw [hunit, ← mul_assoc, mul_comm 2 (num : ℚ)]
      exact mul_le_mul_iff_of_pos_right two_pos
    rw [← hhalf, ← h.eq_high_iff]
    omega
  · have hunit : (2 : ℚ) ^ (970 : Int) * 2 ^ (2 : Int) ≤ unit num := by
      rw [← hshift]
      exact zpow_le_zpow_right₀ one_le_two (by omega)
    have hmany : (2 ^ 54 - 1) * 2 ^ (970 : Int) ≤ (num : ℚ) := by
      calc (2 ^ 54 - 1) * 2 ^ (970 : Int) ≤ 2 ^ 54 * (2 : ℚ) ^ (970 : Int) :=
            mul_le_mul_of_nonneg_right (by norm_num) hpos.le
        _ = 2 ^ 52 * ((2 : ℚ) ^ (970 : Int) * 2 ^ (2 : Int)) := by
            rw [mul_left_comm, mul_comm]
            norm_num
        _ ≤ 2 ^ 52 * unit num := mul_le_mul_of_nonneg_left hunit (by norm_num)
        _ ≤ num := hlow
    exact iff_of_true hmany (by omega)

/-- Unless the exponent is too large, the rounded count is a double of the counted value. -/
lemma Counted.exists_ofParts (hn : num ≠ 0) (hfew : num < overflow) : ∃ m e, ∃ hc : Canonical m e,
    (m : ℚ) * 2 ^ e = count * unit num ∧ (Even count → Even m) ∧
      ((if count = 2 ^ 53 then ofParts false (2 ^ 52) ((num.log2 : Int) - 52 + 1)
        else ofParts false count ((num.log2 : Int) - 52)) = finite false m e hc) := by
  obtain ⟨hlow, hhigh⟩ := h.low, h.high
  have hroom := mt (h.overflow_le_iff hn).mpr (not_le.mpr hfew)
  split
  · next hc =>
    refine ⟨2 ^ 52, (num.log2 : Int) - 52 + 1, ⟨by decide, by omega, by omega, by right; decide⟩,
      ?_, fun _ => by decide, ofParts_of_canonical _⟩
    rw [zpow_add_one₀ two_ne_zero, hc, unit]
    push_cast
    ring
  · next hc =>
    exact ⟨count, (num.log2 : Int) - 52, ⟨by omega, by omega, by omega, by right; omega⟩, rfl, id,
      ofParts_of_canonical _⟩

end Count

/-- A whole number is rounded to the nearest double, or above all of them to infinity. -/
lemma ofRatio_spec (hn : num ≠ 0) :
    (num < overflow ∧ ∃ p, RoundsTo num (ofRatio false num 1) p) ∨
      (overflow ≤ num ∧ ofRatio false num 1 = .infinite false) := by
  obtain ⟨count, h, heq⟩ := exists_ofRatio_eq false hn
  rw [heq]
  rcases lt_or_ge num overflow with hfew | hmany
  · obtain ⟨m, e, hc, hvalue, heven, hparts⟩ := h.exists_ofParts hn hfew
    rw [hparts]
    refine Or.inl ⟨hfew, _, h.roundsTo hn ?_ heven⟩
    rw [toRat?_finite, if_neg Bool.false_ne_true, hvalue]
  · obtain ⟨htop, hlarge⟩ := (h.overflow_le_iff hn).mp hmany
    refine Or.inr ⟨hmany, ?_⟩
    split
    · exact dif_neg fun hc => by have := hc.2.2.1; omega
    · exact dif_neg fun hc => by have := hc.2.2.1; omega

lemma ofRatio_neg (num : Nat) : ofRatio true num 1 = (ofRatio false num 1).neg := by
  have hparts (m : Nat) (e : Int) : ofParts true m e = (ofParts false m e).neg := by
    unfold ofParts
    split <;> rfl
  unfold ofRatio
  simp only [hparts]
  split
  · rfl
  · split <;> rfl

/-- An integer has the double nearest to it, unless it is too large for one. -/
theorem ofInt?_spec (n : Int) :
    (n.natAbs < overflow ∧ ∃ z p, ofInt? n = some z ∧ RoundsTo n z p) ∨
      (overflow ≤ n.natAbs ∧ ofInt? n = none) := by
  have hsome {z : Binary64} {r p : ℚ} (h : RoundsTo r z p) (hz : ofRatio (n < 0) n.natAbs 1 = z) :
      ofInt? n = some z := by
    obtain ⟨negative, m, e, hc, rfl, -⟩ := exists_of_toRat? h.value
    rw [ofInt?, hz]
  rcases lt_trichotomy n 0 with hneg | rfl | hpos
  · have hcast : ((n.natAbs : Nat) : ℚ) = -n := by
      rw [Nat.cast_natAbs, Int.cast_abs, abs_of_neg (by exact_mod_cast hneg)]
    rcases ofRatio_spec (Int.natAbs_ne_zero.mpr hneg.ne) with ⟨hfew, p, h⟩ | ⟨hmany, h⟩
    · have hn := h.neg
      rw [hcast, InvolutiveNeg.neg_neg] at hn
      refine Or.inl ⟨hfew, _, _, hsome hn ?_, hn⟩
      rw [decide_eq_true hneg, ofRatio_neg]
    · refine Or.inr ⟨hmany, ?_⟩
      rw [ofInt?, decide_eq_true hneg, ofRatio_neg, h]
      rfl
  · have hzero : RoundsTo (0 : Int) (zero false) (0 : Int) :=
      .of_toRat? (by simp [zero, toRat?_finite])
    exact Or.inl ⟨overflow_pos, _, _, rfl, hzero⟩
  · have hcast : ((n.natAbs : Nat) : ℚ) = n := by
      rw [Nat.cast_natAbs, Int.cast_abs, abs_of_pos (by exact_mod_cast hpos)]
    rcases ofRatio_spec (Int.natAbs_ne_zero.mpr hpos.ne') with ⟨hfew, p, h⟩ | ⟨hmany, h⟩
    · rw [hcast] at h
      refine Or.inl ⟨hfew, _, _, hsome h ?_, h⟩
      rw [decide_eq_false hpos.not_gt]
    · refine Or.inr ⟨hmany, ?_⟩
      rw [ofInt?, decide_eq_false hpos.not_gt, h]

lemma natAbs_lt_of_toInt? (h : x.toInt? = some n) : n.natAbs < overflow := by
  have hlt := abs_lt_overflow (toInt?_eq_some.mp h)
  rw [← Int.cast_abs, ← Nat.cast_natAbs] at hlt
  exact_mod_cast hlt

/-- An integer that is the value of a double has a double of that value. -/
theorem exists_ofInt?_of_toInt? (h : x.toInt? = some n) :
    ∃ y, ofInt? n = some y ∧ y.toRat? = some (n : ℚ) := by
  rcases ofInt?_spec n with ⟨-, z, p, hz, hp⟩ | ⟨hmany, -⟩
  · have hvalue := hp.value
    rw [hp.eq (toInt?_eq_some.mp h)] at hvalue
    exact ⟨z, hz, hvalue⟩
  · exact absurd (natAbs_lt_of_toInt? h) (not_lt.mpr hmany)

end Binary64

end Conform
