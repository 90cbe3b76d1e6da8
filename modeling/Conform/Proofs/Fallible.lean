import Mathlib.Tactic.Lemma

/-!
Computations that may fail, taken apart at their first step.
-/

namespace Conform.Fallible

variable {ε α β : Type} {x : Except ε α} {f g : α → Except ε β} {a : α} {b : β} {e : ε}

@[simp] lemma ok_bind : (.ok a : Except ε α) >>= f = f a := rfl

@[simp] lemma error_bind : (.error e : Except ε α) >>= f = .error e := rfl

lemma bind_eq_ok_iff : x >>= f = .ok b ↔ ∃ a, x = .ok a ∧ f a = .ok b := by
  cases x with
  | error e =>
    constructor
    · intro h
      cases h
    · rintro ⟨a, h, -⟩
      cases h
  | ok a =>
    constructor
    · exact fun h => ⟨a, rfl, h⟩
    · rintro ⟨a', h, h'⟩
      cases h
      exact h'

lemma bind_eq_error_iff : x >>= f = .error e ↔ x = .error e ∨ ∃ a, x = .ok a ∧ f a = .error e := by
  cases x with
  | error e' =>
    constructor
    · intro h
      cases h
      exact Or.inl rfl
    · rintro (h | ⟨a, h, -⟩) <;> cases h
      rfl
  | ok a =>
    constructor
    · exact fun h => Or.inr ⟨a, rfl, h⟩
    · rintro (h | ⟨a', h, h'⟩) <;> cases h
      exact h'

/-- What follows matters only for what the first step gives. -/
lemma bind_congr_ok (h : ∀ a, x = .ok a → f a = g a) : x >>= f = x >>= g := by
  cases x with
  | error e => rfl
  | ok a => exact h a rfl

end Conform.Fallible
