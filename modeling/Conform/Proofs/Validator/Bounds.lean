import Conform.Proofs.Number.Order
import Conform.Proofs.Validator.Words

/-!
The bounds of numbers. A schema may bound a number from below and above, each with or without the
bound itself. What is reported are the bounds that are broken, and a bound is broken if it does not
hold, unless it cannot be compared: not-a-number is outside of all bounds and breaks none.
-/

namespace Conform.Validator

open Notice

variable {s : Schema} {n limit : Number} {path : String} {f : Finding}

/-- Neither of two numbers is not-a-number. -/
def Comparable (a b : Number) : Prop := a ≠ .double .nan ∧ b ≠ .double .nan

lemma comparable_iff {a b : Number} :
    Comparable a b ↔ ∃ x y, a.value? = some x ∧ b.value? = some y := by
  have hvalue (c : Number) : c ≠ .double .nan ↔ ∃ x, c.value? = some x := by
    rw [← Option.ne_none_iff_exists']
    exact Number.value?_eq_none.not.symm
  rw [Comparable, hvalue, hvalue]
  simp only [exists_and_left, exists_and_right]

inductive Bound where
  | minimum
  | maximum
  | exclusiveMinimum
  | exclusiveMaximum
  deriving DecidableEq, Repr

namespace Bound

variable {b : Bound}

def setting (s : Schema) : Bound → Option Number
  | minimum => s.minimum
  | maximum => s.maximum
  | exclusiveMinimum => s.exclusiveMinimum
  | exclusiveMaximum => s.exclusiveMaximum

/-- How the value of a bound is to lie to that of the number. -/
def Meets : Bound → Number.Extended → Number.Extended → Prop
  | minimum, x, y => x ≤ y
  | maximum, x, y => y ≤ x
  | exclusiveMinimum, x, y => x < y
  | exclusiveMaximum, x, y => y < x

/-- A bound at some number holds of another: both have values, and these lie as they are to. -/
def Holds (b : Bound) (limit n : Number) : Prop :=
  ∃ x y, limit.value? = some x ∧ n.value? = some y ∧ b.Meets x y

/-- The check for a bound: what is looked for is that it is broken. -/
def breaks : Bound → Number → Number → Bool
  | minimum, limit, n => n.lt limit
  | maximum, limit, n => limit.lt n
  | exclusiveMinimum, limit, n => n.le limit
  | exclusiveMaximum, limit, n => limit.le n

def words : Bound → String
  | minimum => "Number is less than required minimum "
  | maximum => "Number is greater than allowed maximum "
  | exclusiveMinimum => "Number must be greater than "
  | exclusiveMaximum => "Number must be less than "

def sign : Bound → String
  | minimum => ">= "
  | maximum => "<= "
  | exclusiveMinimum => "> "
  | exclusiveMaximum => "< "

def finding (b : Bound) (path : String) (limit n : Number) : Finding :=
  .invalidValue path (b.words ++ limit.text) (b.sign ++ limit.text) n.text

lemma breaks_eq_true : b.breaks limit n = true ↔
    ∃ x y, limit.value? = some x ∧ n.value? = some y ∧ ¬b.Meets x y := by
  cases b with
  | minimum =>
    rw [breaks, Number.lt_eq_true]
    constructor
    · rintro ⟨y, x, hy, hx, h⟩
      exact ⟨x, y, hx, hy, not_le.mpr h⟩
    · rintro ⟨x, y, hx, hy, h⟩
      exact ⟨y, x, hy, hx, not_le.mp h⟩
  | maximum => simp only [breaks, Number.lt_eq_true, Meets, not_le]
  | exclusiveMinimum =>
    rw [breaks, Number.le_eq_true]
    constructor
    · rintro ⟨y, x, hy, hx, h⟩
      exact ⟨x, y, hx, hy, not_lt.mpr h⟩
    · rintro ⟨x, y, hx, hy, h⟩
      exact ⟨y, x, hy, hx, not_lt.mp h⟩
  | exclusiveMaximum => simp only [breaks, Number.le_eq_true, Meets, not_lt]

/-- A bound is broken exactly if it can be compared and does not hold. -/
lemma breaks_iff : b.breaks limit n = true ↔ Comparable limit n ∧ ¬b.Holds limit n := by
  rw [breaks_eq_true]
  constructor
  · rintro ⟨x, y, hx, hy, h⟩
    refine ⟨comparable_iff.mpr ⟨x, y, hx, hy⟩, ?_⟩
    rintro ⟨x', y', hx', hy', h'⟩
    cases hx.symm.trans hx'
    cases hy.symm.trans hy'
    exact h h'
  · rintro ⟨hc, h⟩
    obtain ⟨x, y, hx, hy⟩ := comparable_iff.mp hc
    exact ⟨x, y, hx, hy, fun hm => h ⟨x, y, hx, hy, hm⟩⟩

lemma opens_finding (b : Bound) (path : String) (limit n : Number) :
    Opens b.words (b.finding path limit n) := ⟨_, rfl⟩

end Bound

def OnBound (f : Finding) : Prop := ∃ b : Bound, Opens b.words f

lemma numberFindings_eq (s : Schema) (path : String) (n : Number) : numberFindings s path n =
    [Bound.minimum, .maximum, .exclusiveMinimum, .exclusiveMaximum].flatMap (fun b =>
      whenSet (b.setting s) (b.breaks · n) (b.finding path · n)) ++
    whenSet s.multipleOf (fun d => n.offMultiple d) (fun d =>
      .invalidValue path ("Number must be a multiple of " ++ d.text) ("multiple of " ++ d.text)
        n.text) := by
  simp [numberFindings, Bound.setting, Bound.breaks, Bound.finding, Bound.words, Bound.sign]

/-- The findings on a number that speak of bounds are those on the bounds it breaks. -/
lemma onBound_mem_numberFindings : f ∈ numberFindings s path n ∧ OnBound f ↔
    ∃ b limit, Bound.setting s b = some limit ∧ b.breaks limit n = true ∧
      f = b.finding path limit n := by
  rw [numberFindings_eq, List.mem_append, List.mem_flatMap, mem_whenSet]
  constructor
  · rintro ⟨⟨b, -, hf⟩ | ⟨d, -, -, rfl⟩, a, ha⟩
    · exact ⟨b, mem_whenSet.mp hf⟩
    · have hopens : Opens "Number must be a multiple of " (.invalidValue path
          ("Number must be a multiple of " ++ d.text) ("multiple of " ++ d.text) n.text) := ⟨_, rfl⟩
      exact absurd ha (not_opens_of_opens hopens (by cases a <;> decide +kernel))
  · rintro ⟨b, limit, hs, hb, rfl⟩
    exact ⟨Or.inl ⟨b, by cases b <;> decide, mem_whenSet.mpr ⟨limit, hs, hb, rfl⟩⟩, b,
      b.opens_finding path limit n⟩

/-- No finding speaks of a bound exactly if every bound holds that can be compared. -/
lemma forall_not_onBound (s : Schema) (path : String) (n : Number) :
    (∀ f ∈ numberFindings s path n, ¬OnBound f) ↔
      ∀ b limit, Bound.setting s b = some limit → Comparable limit n → b.Holds limit n := by
  constructor
  · intro h b limit hs hc
    by_contra hb
    obtain ⟨hf, ho⟩ : _ ∈ numberFindings s path n ∧ OnBound _ :=
      onBound_mem_numberFindings.mpr ⟨b, limit, hs, Bound.breaks_iff.mpr ⟨hc, hb⟩, rfl⟩
    exact h _ hf ho
  · intro h f hf ho
    obtain ⟨b, limit, hs, hb, -⟩ := onBound_mem_numberFindings.mp ⟨hf, ho⟩
    obtain ⟨hc, hb⟩ := Bound.breaks_iff.mp hb
    exact hb (h b limit hs hc)

/-- **Bounds.** A number that can be written is told of exactly the bounds that do not hold, those
apart that cannot be compared. So where neither the number nor a bound is not-a-number, none is told
of exactly if all hold. A number that cannot be written ends everything. -/
theorem numberNotices_bounds (s : Schema) (path : String) (n : Number) :
    (n.isWritable = false → gather (numberNotices s path n) = .error .numberTooLong) ∧
    (n.isWritable = true → ∃ fs, gather (numberNotices s path n) = .ok fs ∧
      (∀ f, f ∈ fs ∧ OnBound f ↔ ∃ b limit, Bound.setting s b = some limit ∧
        Comparable limit n ∧ ¬b.Holds limit n ∧ f = b.finding path limit n) ∧
      ((∀ b limit, Bound.setting s b = some limit → Comparable limit n) →
        ((∀ f ∈ fs, ¬OnBound f) ↔
          ∀ b limit, Bound.setting s b = some limit → b.Holds limit n))) := by
  refine ⟨fun h => ?_, fun h => ⟨numberFindings s path n, ?_, fun f => ?_, fun hc => ?_⟩⟩
  · rw [numberNotices, if_neg (by rw [h]; exact Bool.false_ne_true)]
    rfl
  · rw [numberNotices, if_pos h, gather_ofFindings]
  · simp only [onBound_mem_numberFindings, Bound.breaks_iff, and_assoc]
  · rw [forall_not_onBound]
    exact ⟨fun h b limit hs => h b limit hs (hc b limit hs), fun h b limit hs _ => h b limit hs⟩

/-- Not-a-number is not at least zero, and nothing is said of it where that is asked for. -/
theorem nan_not_reported :
    Bound.setting { minimum := some (.int 0) } .minimum = some (.int 0) ∧
      ¬Bound.minimum.Holds (.int 0) (.double .nan) ∧
      gather (numberNotices { minimum := some (.int 0) } "$" (.double .nan)) = .ok [] := by
  refine ⟨rfl, ?_, ?_⟩
  · rintro ⟨x, y, -, hy, -⟩
    cases hy
  · rfl

end Conform.Validator
