import Conform.Proofs.Number.Respelled
import Conform.Proofs.Value.Pairwise

/-!
Documents that write some of their whole numbers in another way. They have the same containers and
texts, so all that is asked of a node but for its number is the same for both, and they equal the
same literals.
-/

namespace Conform.Value

variable {v w : Value} {a b : Number}

/-- Two trees are the same, but that an integer may stand for a double of the same value or a
double for an integer. -/
inductive Respelled : Value → Value → Prop where
  | same (v : Value) : Respelled v v
  | number (k : NumberKind) {a b : Number} (h : a.Respelled b) :
      Respelled (.number k a) (.number k b)
  | array {vs ws : List Value} (length : vs.length = ws.length)
      (items : ∀ x ∈ vs.zip ws, Respelled x.1 x.2) : Respelled (.array vs) (.array ws)
  | object {ms ns : List (String × Value)} (keys : Members.keys ms = Members.keys ns)
      (values : ∀ x ∈ ms.zip ns, Respelled x.1.2 x.2.2) : Respelled (.object ms) (.object ns)

lemma Respelled.kind (h : Respelled v w) : v.kind = w.kind := by
  cases h <;> rfl

lemma Respelled.text? (h : Respelled v w) : v.text? = w.text? := by
  cases h <;> rfl

lemma Respelled.children (h : Respelled v w) :
    List.Forall₂ (StepWise Respelled) v.children w.children := by
  cases h with
  | same => exact List.forall₂_same.mpr fun c _ => ⟨rfl, .same c.2⟩
  | number => exact .nil
  | array length items =>
    exact forall₂_children_array (List.forall₂_iff_zip.mpr ⟨length, fun hm => items _ hm⟩)
  | object keys values => exact forall₂_children_object (forall₂_of_keys_eq keys values)

theorem Respelled.sameLiterals (h : Respelled v w) : SameLiterals v w := by
  induction h with
  | same => exact fun _ => rfl
  | number k h =>
    intro j
    cases j with
    | number c => simp only [equals, h.eqv]
    | null | bool | string | array | object => simp only [equals]
  | array length _ ih =>
    exact sameLiterals_array (List.forall₂_iff_zip.mpr ⟨length, fun hm => ih _ hm⟩)
  | object keys _ ih => exact sameLiterals_object (forall₂_of_keys_eq keys ih)

end Conform.Value
