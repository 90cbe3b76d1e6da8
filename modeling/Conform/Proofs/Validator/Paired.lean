import Mathlib.Data.List.Forall2
import Conform.Proofs.Validator.Findings

/-!
Two walks position by position. Where the notices of both are paired, two findings that are related
or twice the same interruption, both validations have findings that are related one by one, or both
end with one interruption.
-/

namespace Conform

variable {R : Finding → Finding → Prop}

lemma isEmpty_of_forall₂ {fs gs : List Finding} (h : List.Forall₂ R fs gs) :
    fs.isEmpty = gs.isEmpty := by
  cases h <;> rfl

lemma forall₂_trans (hR : ∀ {f g h}, R f g → R g h → R f h) {fs gs hs : List Finding}
    (h : List.Forall₂ R fs gs) (h' : List.Forall₂ R gs hs) : List.Forall₂ R fs hs := by
  induction h generalizing hs with
  | nil => exact h'
  | cons hfg _ ih =>
    cases h' with
    | cons hgh h' => exact .cons (hR hfg hgh) (ih h')

namespace Notice

/-- Two findings that are related, or twice the same interruption. -/
inductive Paired (R : Finding → Finding → Prop) : Notice → Notice → Prop where
  | found {f g : Finding} (h : R f g) : Paired R (.ok f) (.ok g)
  | ended (i : Interruption) : Paired R (.error i) (.error i)

variable {ns ms : List Notice} {fs gs : List Finding}

lemma Paired.refl (h : ∀ f, R f f) : ∀ n : Notice, Paired R n n
  | .ok f => .found (h f)
  | .error i => .ended i

lemma paired_same (h : ∀ f, R f f) (ns : List Notice) : List.Forall₂ (Paired R) ns ns :=
  List.forall₂_same.mpr fun n _ => .refl h n

lemma paired_ofFindings (h : List.Forall₂ R fs gs) :
    List.Forall₂ (Paired R) (ofFindings fs) (ofFindings gs) := by
  rw [ofFindings, ofFindings, List.forall₂_map_left_iff, List.forall₂_map_right_iff]
  exact h.imp fun _ _ => .found

/-- Of paired notices, both lists hold findings alone, or both end with one interruption. -/
lemma gather_paired (h : List.Forall₂ (Paired R) ns ms) :
    (∃ fs gs, gather ns = .ok fs ∧ gather ms = .ok gs ∧ List.Forall₂ R fs gs) ∨
      ∃ i, gather ns = .error i ∧ gather ms = .error i := by
  induction h with
  | nil => exact Or.inl ⟨[], [], rfl, rfl, .nil⟩
  | @cons n m ns ms hnm _ ih =>
    cases hnm with
    | ended i => exact Or.inr ⟨i, rfl, rfl⟩
    | @found f g hfg =>
      rcases ih with ⟨fs, gs, hf, hg, h⟩ | ⟨i, hf, hg⟩
      · exact Or.inl ⟨f :: fs, g :: gs, by rw [gather, hf], by rw [gather, hg], .cons hfg h⟩
      · exact Or.inr ⟨i, by rw [gather, hf], by rw [gather, hg]⟩

end Notice

namespace Validator

variable {e e' : Setup} {v w : Value} {s t : Schema} {path path' : String}

/-- Paired walks give findings exactly if no checked pair of the first breaks off, and interruptions
together. -/
lemma validate_paired (h : List.Forall₂ (Notice.Paired R) (walk e v s (Site.ofRoot path))
      (walk e' w t (Site.ofRoot path'))) :
    ((∃ fs gs, validate e v s path = .ok fs ∧ validate e' w t path' = .ok gs ∧
        List.Forall₂ R fs gs) ↔ Lasts e v s (Site.ofRoot path)) ∧
      ∀ i, validate e v s path = .error i ↔ validate e' w t path' = .error i := by
  rw [← exists_validate_iff]
  simp only [validate]
  rcases Notice.gather_paired h with ⟨fs, gs, hf, hg, h⟩ | ⟨i, hf, hg⟩
  · rw [hf, hg]
    exact ⟨⟨fun _ => ⟨fs, rfl⟩, fun _ => ⟨fs, gs, rfl, rfl, h⟩⟩, by simp⟩
  · rw [hf, hg]
    exact ⟨⟨by simp, by simp⟩, by simp⟩

end Validator

end Conform
