import Mathlib.Data.List.Induction
import Conform.Proofs.Json.Reading
import Conform.Value.Basic

/-!
What a text that is read is made of: leaves, and containers of what was read before them. Its numbers
can all be written, since an integer with more digits is refused.
-/

namespace Conform

open Fallible

lemma digitsValue_lt_length {ds : List Char} (h : ∀ d ∈ ds, d.isDigit = true) :
    digitsValue ds < Nat.pow 10 ds.length := by
  induction ds using List.reverseRecOn with
  | nil => exact Nat.one_pos
  | append_singleton ds d ih =>
    have hds := ih fun x hx => h x (List.mem_append_left _ hx)
    have hd := Char.isDigit_iff_toNat.mp (h d (by simp))
    have hnine : '9'.toNat = 0x39 := rfl
    have hpow : Nat.pow 10 (ds ++ [d]).length = Nat.pow 10 ds.length * 10 := by
      rw [List.length_append]
      rfl
    rw [hpow]
    simp only [digitsValue, List.foldl_append, List.foldl_cons, List.foldl_nil] at hds ⊢
    omega

lemma digitsValue_lt {ds : List Char} {n : Nat} (h : ∀ d ∈ ds, d.isDigit = true)
    (hn : ds.length ≤ n) : digitsValue ds < Nat.pow 10 n :=
  (digitsValue_lt_length h).trans_le (Nat.pow_le_pow_right (by decide) hn)

namespace Json

variable {text : List Char} {c c' : Cursor} {j : Json} {fuel room : Nat} {m : Number}

inductive Holds (m : Number) : Json → Prop where
  | number : Holds m (.number m)
  | item {js : List Json} {j : Json} (mem : j ∈ js) (h : Holds m j) : Holds m (.array js)
  | member {ms : List (String × Json)} {key : String} {j : Json} (mem : (key, j) ∈ ms)
      (h : Holds m j) : Holds m (.object ms)

/-- Every number of a document can be written. -/
def Writable (j : Json) : Prop := ∀ m, Holds m j → m.isWritable = true

lemma writable_number : Writable (.number m) ↔ m.isWritable = true := by
  constructor
  · exact fun h => h m .number
  · rintro h _ ⟨⟩
    exact h

lemma writable_array {js : List Json} : Writable (.array js) ↔ ∀ j ∈ js, Writable j := by
  constructor
  · exact fun h j hj m hm => h m (.item hj hm)
  · intro h m hm
    cases hm with
    | item hj hm => exact h _ hj m hm

lemma writable_object {ms : List (String × Json)} :
    Writable (.object ms) ↔ ∀ p ∈ ms, Writable p.2 := by
  constructor
  · exact fun h p hp m hm => h m (.member hp hm)
  · intro h m hm
    cases hm with
    | member hp hm => exact h _ hp m hm

lemma readNumber_ok (h : readNumber c = .ok (j, c')) :
    ∃ m : Number, j = .number m ∧ m.isWritable = true := by
  rcases readNumber_cases c with ⟨-, hr⟩ | ⟨ds, rest, hw, hr⟩
  · rw [hr] at h
    cases h
  · obtain ⟨-, -, hd⟩ := whole_spec hw
    rcases hr with ⟨x, n, -, -, hr⟩ | ⟨-, -, -, hr⟩ | ⟨i, n, -, hl, hi, hr⟩ <;> rw [hr] at h <;>
      cases h
    · exact ⟨.double x, rfl, rfl⟩
    · refine ⟨.int i, rfl, Number.isWritable_int.mpr ?_⟩
      rw [hi]
      exact digitsValue_lt hd hl

lemma readScalar_ok (h : readScalar c = .ok (j, c')) :
    j = .null ∨ (∃ b, j = .bool b) ∨ ∃ m : Number, j = .number m ∧ m.isWritable = true := by
  unfold readScalar at h
  split at h
  · cases h
    exact Or.inl rfl
  iterate 2
    split at h
    · cases h
      exact Or.inr (Or.inl ⟨_, rfl⟩)
  iterate 3
    split at h
    · cases h
      exact Or.inr (Or.inr ⟨_, rfl, rfl⟩)
  exact Or.inr (Or.inr (readNumber_ok h))

/-! ### Containers -/

section Induction

variable {P : Json → Prop}

lemma forall_of_read (null : P .null) (bool : ∀ b, P (.bool b))
    (number : ∀ m : Number, m.isWritable = true → P (.number m)) (string : ∀ s, P (.string s))
    (array : ∀ js : List Json, (∀ j ∈ js, P j) → P (.array js))
    (object : ∀ ps : List (String × Json), (∀ p ∈ ps, P p.2) → P (.object (Members.ofPairs ps)))
    (fuel : Nat) :
    (∀ room c j c', readValue fuel room c = .ok (j, c') → P j) ∧
    (∀ room c done js c', readItems fuel room c done = .ok (js, c') → (∀ j ∈ done, P j) →
      ∀ j ∈ js, P j) ∧
    (∀ room c done ps c', readPairs fuel room c done = .ok (ps, c') →
      (∀ p ∈ done, P p.2) → ∀ p ∈ ps, P p.2) := by
  induction fuel with
  | zero =>
    refine ⟨fun room c j c' h => ?_, fun room c done js c' h => ?_,
      fun room c done ps c' h => ?_⟩ <;> cases h
  | succ fuel ih =>
    obtain ⟨ihv, ihi, ihp⟩ := ih
    refine ⟨fun room c j c' h => ?_, fun room c done js c' h hd => ?_,
      fun room c done ps c' h hd => ?_⟩
    · rcases readValue_ok h with ⟨r, s, -, -, rfl⟩ |
        ⟨r, n, -, -, ⟨r', -, -, rfl⟩ | ⟨js, hjs, rfl⟩⟩ |
        ⟨r, n, -, -, ⟨r', -, -, rfl⟩ | ⟨ps, hps, rfl⟩⟩ | h
      · exact string s
      · exact array [] (List.forall_mem_nil _)
      · exact array js (ihi _ _ _ _ _ hjs (List.forall_mem_nil _))
      · exact object [] (List.forall_mem_nil _)
      · exact object ps (ihp _ _ _ _ _ hps (List.forall_mem_nil _))
      · rcases readScalar_ok h with rfl | ⟨b, rfl⟩ | ⟨m, rfl, hm⟩
        · exact null
        · exact bool b
        · exact number m hm
    · obtain ⟨j, c₁, hj, h⟩ := readItems_ok h
      have hdone : ∀ x ∈ j :: done, P x := List.forall_mem_cons.mpr ⟨ihv _ _ _ _ hj, hd⟩
      rcases h with ⟨r, -, -, rfl⟩ | ⟨r, -, h⟩
      · exact fun x hx => hdone x (List.mem_reverse.mp hx)
      · exact ihi _ _ _ _ _ h hdone
    · obtain ⟨r, key, c₁, r₁, j, c₂, -, -, -, hj, h⟩ := readPairs_ok h
      have hdone : ∀ p ∈ (key, j) :: done, P p.2 :=
        List.forall_mem_cons.mpr ⟨ihv _ _ _ _ hj, hd⟩
      rcases h with ⟨r₂, -, -, rfl⟩ | ⟨r₂, -, h⟩
      · exact fun x hx => hdone x (List.mem_reverse.mp hx)
      · exact ihp _ _ _ _ _ h hdone

/-- What holds of all leaves whose numbers can be written, and of containers as soon as it holds of
all that is in them, holds of every text that is read. -/
theorem forall_of_parse (null : P .null) (bool : ∀ b, P (.bool b))
    (number : ∀ m : Number, m.isWritable = true → P (.number m)) (string : ∀ s, P (.string s))
    (array : ∀ js : List Json, (∀ j ∈ js, P j) → P (.array js))
    (object : ∀ ps : List (String × Json), (∀ p ∈ ps, P p.2) → P (.object (Members.ofPairs ps)))
    (h : parse text = .ok j) : P j := by
  unfold parse at h
  split at h
  · cases h
  · obtain ⟨⟨j', c⟩, hv, h⟩ := bind_eq_ok_iff.mp h
    simp only at h
    split at h
    · cases h
      exact (forall_of_read null bool number string array object _).1 _ _ _ _ hv
    · cases h

end Induction

/-- Every number of a text that is read can be written. -/
theorem writable_of_parse (h : parse text = .ok j) : Writable j := by
  refine forall_of_parse ?_ ?_ ?_ ?_ ?_ ?_ h
  · rintro m ⟨⟩
  · rintro b m ⟨⟩
  · exact fun m hm => writable_number.mpr hm
  · rintro s m ⟨⟩
  · exact fun js hjs => writable_array.mpr hjs
  · refine fun ps hps => writable_object.mpr fun ⟨k, y⟩ hy => ?_
    obtain ⟨p, hp, rfl⟩ := Members.mem_ofPairs hy
    exact hps p hp

end Json

end Conform
