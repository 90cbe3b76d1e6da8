import Mathlib.Data.List.TakeWhile
import Mathlib.Data.Nat.Init
import Conform.Json.Reader
import Conform.Proofs.Fallible

/-!
Reading JSON without counting steps. Whatever is read takes some of the text, so the steps that
are allowed never run out, and a value, items and pairs are read as their grammar says.
-/

namespace Conform.Json

open Fallible

variable {c c' : Cursor} {j : Json} {fuel room : Nat}

lemma length_move (c : Cursor) (n : Nat) : (c.move n).rest.length = c.rest.length - n := by
  simp [Cursor.move]

lemma length_skip_le (c : Cursor) : c.skip.rest.length ≤ c.rest.length := by
  rw [Cursor.skip, length_move]
  omega

lemma length_word (w : String) (h : c.word? w = some c') (hw : 0 < w.length) :
    c'.rest.length < c.rest.length := by
  unfold Cursor.word? at h
  split at h
  · next hp =>
    cases h
    have := (List.isPrefixOf_iff_prefix.mp hp).length_le
    rw [String.length_toList] at this
    rw [length_move]
    omega
  · cases h

lemma length_stringFrom {start pos : Nat} {cs done : List Char} {s : String}
    (h : stringFrom start cs pos done = .ok (s, c')) : c'.rest.length < cs.length := by
  fun_induction stringFrom start cs pos done with
  | case2 r =>
    cases h
    exact Nat.lt_succ_self _
  | _ => simp_all <;> omega

lemma length_readString {s : String} (h : readString c = .ok (s, c')) :
    c'.rest.length < c.rest.length :=
  length_stringFrom h

lemma whole_spec {cs ds rest : List Char} (h : whole? cs = some (ds, rest)) :
    0 < ds.length ∧ cs = ds ++ rest ∧ ∀ d ∈ ds, d.isDigit = true := by
  unfold whole? at h
  split at h
  · cases h
    refine ⟨Nat.one_pos, rfl, fun d hd => ?_⟩
    rw [List.mem_singleton.mp hd]
    rfl
  · next hz =>
    simp only [Option.ite_none_left_eq_some, Bool.not_eq_true, List.isEmpty_eq_false_iff,
      Option.some.injEq, Prod.mk.injEq] at h
    obtain ⟨hne, rfl, rfl⟩ := h
    exact ⟨List.length_pos_iff.mpr hne, (spanDigits_append cs).symm,
      fun d hd => List.mem_takeWhile_imp hd⟩

lemma spanMinus_spec (cs : List Char) :
    ∃ minus, cs = minus ++ (spanMinus cs).2 ∧ (minus = [] ∨ minus = ['-']) := by
  unfold spanMinus
  split
  · exact ⟨['-'], rfl, Or.inr rfl⟩
  · exact ⟨[], rfl, Or.inl rfl⟩

/-- All that reading a number can come to. -/
lemma readNumber_cases (c : Cursor) :
    (whole? (spanMinus c.rest).2 = none ∧ readNumber c = c.fail .value) ∨
    ∃ ds rest, whole? (spanMinus c.rest).2 = some (ds, rest) ∧
      ((∃ x n, ds.length ≤ n ∧ (fraction? rest ≠ none ∨ exponent? rest ≠ none) ∧
          readNumber c = .ok (.number (.double x), c.move n)) ∨
        (fraction? rest = none ∧ exponent? rest = none ∧ digitLimit < ds.length ∧
          readNumber c = .error (.tooManyDigits ds.length)) ∨
        ∃ i n, ds.length ≤ n ∧ ds.length ≤ digitLimit ∧ Int.natAbs i = digitsValue ds ∧
          readNumber c = .ok (.number (.int i), c.move n)) := by
  cases hw : whole? (spanMinus c.rest).2 with
  | none => exact Or.inl ⟨rfl, by simp only [readNumber, hw]⟩
  | some p =>
    obtain ⟨ds, rest⟩ := p
    refine Or.inr ⟨ds, rest, rfl, ?_⟩
    cases hf : fraction? rest with
    | some q =>
      refine Or.inl ⟨_, _, ?_, Or.inl (by simp), by simp only [readNumber, hw, hf]; rfl⟩
      omega
    | none =>
      cases he : exponent? rest with
      | some q =>
        refine Or.inl ⟨_, _, ?_, Or.inr (by simp), by simp only [readNumber, hw, hf, he]; rfl⟩
        omega
      | none =>
        by_cases hl : digitLimit < ds.length
        · exact Or.inr (Or.inl ⟨rfl, rfl, hl, by simp only [readNumber, hw, hf, he, hl, if_true]⟩)
        · refine Or.inr (Or.inr ⟨_, _, ?_, by omega, ?_,
            by simp only [readNumber, hw, hf, he, hl, if_false]; rfl⟩)
          · omega
          · split <;> simp

lemma length_readNumber (h : readNumber c = .ok (j, c')) : c'.rest.length < c.rest.length := by
  obtain ⟨minus, hminus, -⟩ := spanMinus_spec c.rest
  have hs := congrArg List.length hminus
  have hmove : ∃ n, 0 < n ∧ 0 < c.rest.length ∧ c' = c.move n := by
    rcases readNumber_cases c with ⟨-, hr⟩ | ⟨ds, rest, hw, hr⟩
    · rw [hr] at h
      cases h
    · obtain ⟨hpos, hcs, -⟩ := whole_spec hw
      rw [hcs, List.length_append, List.length_append] at hs
      rcases hr with ⟨x, n, hn, -, hr⟩ | ⟨-, -, -, hr⟩ | ⟨i, n, hn, -, -, hr⟩ <;> rw [hr] at h <;>
        cases h
      · exact ⟨n, by omega, by omega, rfl⟩
      · exact ⟨n, by omega, by omega, rfl⟩
  obtain ⟨n, hn, hc, rfl⟩ := hmove
  rw [length_move]
  omega

lemma length_readScalar (h : readScalar c = .ok (j, c')) : c'.rest.length < c.rest.length := by
  unfold readScalar at h
  iterate 6
    split at h
    · next hw =>
      cases h
      exact length_word _ hw (by decide)
  exact length_readNumber h

lemma length_next_lt (h : c.rest ≠ []) : c.next.rest.length < c.rest.length := by
  have hpos := List.length_pos_iff.mpr h
  have hskip := length_skip_le (c.move 1)
  rw [length_move] at hskip
  rw [Cursor.next]
  omega

lemma length_move_one_lt (h : c.rest ≠ []) : (c.move 1).rest.length < c.rest.length := by
  have hpos := List.length_pos_iff.mpr h
  rw [length_move]
  omega

lemma readValue_ok (h : readValue (fuel + 1) room c = .ok (j, c')) :
    (∃ r s, c.rest = '"' :: r ∧ readString (c.move 1) = .ok (s, c') ∧ j = .string s) ∨
    (∃ r n, c.rest = '[' :: r ∧ room = n + 1 ∧
      ((∃ r', c.next.rest = ']' :: r' ∧ c' = c.next.move 1 ∧ j = .array []) ∨
        ∃ js, readItems fuel n c.next [] = .ok (js, c') ∧ j = .array js)) ∨
    (∃ r n, c.rest = '\x7b' :: r ∧ room = n + 1 ∧
      ((∃ r', c.next.rest = '\x7d' :: r' ∧ c' = c.next.move 1 ∧ j = .object []) ∨
        ∃ ps, readPairs fuel n c.next [] = .ok (ps, c') ∧ j = .object (Members.ofPairs ps))) ∨
    readScalar c = .ok (j, c') := by
  unfold readValue at h
  split at h
  · next r hr =>
    obtain ⟨⟨s, c₁⟩, hs, h⟩ := bind_eq_ok_iff.mp h
    cases h
    exact Or.inl ⟨r, s, hr, hs, rfl⟩
  · next r hr =>
    split at h
    · cases h
    · next n =>
      refine Or.inr (Or.inl ⟨r, n, hr, rfl, ?_⟩)
      split at h
      · next r' hr' =>
        cases h
        exact Or.inl ⟨r', hr', rfl, rfl⟩
      · obtain ⟨⟨js, c₁⟩, hs, h⟩ := bind_eq_ok_iff.mp h
        cases h
        exact Or.inr ⟨js, hs, rfl⟩
  · next r hr =>
    split at h
    · cases h
    · next n =>
      refine Or.inr (Or.inr (Or.inl ⟨r, n, hr, rfl, ?_⟩))
      split at h
      · next r' hr' =>
        cases h
        exact Or.inl ⟨r', hr', rfl, rfl⟩
      · obtain ⟨⟨ps, c₁⟩, hs, h⟩ := bind_eq_ok_iff.mp h
        cases h
        exact Or.inr ⟨ps, hs, rfl⟩
  · exact Or.inr (Or.inr (Or.inr h))

lemma readItems_ok {js done : List Json} (h : readItems (fuel + 1) room c done = .ok (js, c')) :
    ∃ j c₁, readValue fuel room c = .ok (j, c₁) ∧
      ((∃ r, c₁.skip.rest = ']' :: r ∧ c' = c₁.skip.move 1 ∧ js = (j :: done).reverse) ∨
        ∃ r, c₁.skip.rest = ',' :: r ∧
          readItems fuel room c₁.skip.next (j :: done) = .ok (js, c')) := by
  unfold readItems at h
  obtain ⟨⟨j, c₁⟩, hj, h⟩ := bind_eq_ok_iff.mp h
  refine ⟨j, c₁, hj, ?_⟩
  simp only at h
  split at h
  · next r hr =>
    cases h
    exact Or.inl ⟨r, hr, rfl, rfl⟩
  · next r hr => exact Or.inr ⟨r, hr, h⟩
  · cases h

lemma readPairs_ok {ps done : List (String × Json)}
    (h : readPairs (fuel + 1) room c done = .ok (ps, c')) :
    ∃ r key c₁ r₁ j c₂, c.rest = '"' :: r ∧ readString (c.move 1) = .ok (key, c₁) ∧
      c₁.skip.rest = ':' :: r₁ ∧ readValue fuel room c₁.skip.next = .ok (j, c₂) ∧
      ((∃ r₂, c₂.skip.rest = '\x7d' :: r₂ ∧ c' = c₂.skip.move 1 ∧
          ps = ((key, j) :: done).reverse) ∨
        ∃ r₂, c₂.skip.rest = ',' :: r₂ ∧
          readPairs fuel room c₂.skip.next ((key, j) :: done) = .ok (ps, c')) := by
  unfold readPairs at h
  split at h
  · next r hr =>
    obtain ⟨⟨key, c₁⟩, hk, h⟩ := bind_eq_ok_iff.mp h
    simp only at h
    split at h
    · next r₁ hr₁ =>
      obtain ⟨⟨j, c₂⟩, hj, h⟩ := bind_eq_ok_iff.mp h
      refine ⟨r, key, c₁, r₁, j, c₂, hr, hk, hr₁, hj, ?_⟩
      simp only at h
      split at h
      · next r₂ hr₂ =>
        cases h
        exact Or.inl ⟨r₂, hr₂, rfl, rfl⟩
      · next r₂ hr₂ => exact Or.inr ⟨r₂, hr₂, h⟩
      · cases h
    · cases h
  · cases h

/-! ### The steps suffice -/

lemma length_read (fuel : Nat) :
    (∀ room c j c', readValue fuel room c = .ok (j, c') → c'.rest.length < c.rest.length) ∧
    (∀ room c done js c', readItems fuel room c done = .ok (js, c') →
      c'.rest.length < c.rest.length) ∧
    (∀ room c done ps c', readPairs fuel room c done = .ok (ps, c') →
      c'.rest.length < c.rest.length) := by
  induction fuel with
  | zero =>
    refine ⟨fun room c j c' h => ?_, fun room c done js c' h => ?_,
      fun room c done ps c' h => ?_⟩ <;> cases h
  | succ fuel ih =>
    obtain ⟨ihv, ihi, ihp⟩ := ih
    refine ⟨fun room c j c' h => ?_, fun room c done js c' h => ?_, fun room c done ps c' h => ?_⟩
    · have hopen : ∀ {a r}, c.rest = a :: r → c.next.rest.length < c.rest.length ∧
          (c.move 1).rest.length < c.rest.length := fun hr =>
        ⟨length_next_lt (by simp [hr]), length_move_one_lt (by simp [hr])⟩
      rcases readValue_ok h with ⟨r, s, hr, hs, -⟩ |
        ⟨r, n, hr, -, ⟨r', hr', rfl, -⟩ | ⟨js, hjs, -⟩⟩ |
        ⟨r, n, hr, -, ⟨r', hr', rfl, -⟩ | ⟨ps, hps, -⟩⟩ | h
      · have := length_readString hs
        have := hopen hr
        omega
      · have := length_move c.next 1
        have := hopen hr
        omega
      · have := ihi _ _ _ _ _ hjs
        have := hopen hr
        omega
      · have := length_move c.next 1
        have := hopen hr
        omega
      · have := ihp _ _ _ _ _ hps
        have := hopen hr
        omega
      · exact length_readScalar h
    · obtain ⟨j, c₁, hj, ⟨r, hr, rfl, -⟩ | ⟨r, hr, h⟩⟩ := readItems_ok h
      · have := ihv _ _ _ _ hj
        have := length_skip_le c₁
        have := length_move c₁.skip 1
        omega
      · have := ihv _ _ _ _ hj
        have := length_skip_le c₁
        have := length_next_lt (c := c₁.skip) (by simp [hr])
        have := ihi _ _ _ _ _ h
        omega
    · obtain ⟨r, key, c₁, r₁, j, c₂, hr, hk, hr₁, hj, h⟩ := readPairs_ok h
      have := length_move_one_lt (c := c) (by simp [hr])
      have := length_readString hk
      have := length_skip_le c₁
      have := length_next_lt (c := c₁.skip) (by simp [hr₁])
      have := ihv _ _ _ _ hj
      have := length_skip_le c₂
      rcases h with ⟨r₂, hr₂, rfl, -⟩ | ⟨r₂, hr₂, h⟩
      · have := length_move c₂.skip 1
        omega
      · have := length_next_lt (c := c₂.skip) (by simp [hr₂])
        have := ihp _ _ _ _ _ h
        omega

lemma read_fuel (fuel : Nat) :
    (∀ room c, 2 * c.rest.length + 1 ≤ fuel →
      readValue fuel room c = readValue (fuel + 1) room c) ∧
    (∀ room c done, 2 * c.rest.length + 2 ≤ fuel →
      readItems fuel room c done = readItems (fuel + 1) room c done) ∧
    (∀ room c done, 2 * c.rest.length + 2 ≤ fuel →
      readPairs fuel room c done = readPairs (fuel + 1) room c done) := by
  induction fuel with
  | zero =>
    refine ⟨fun room c h => ?_, fun room c done h => ?_, fun room c done h => ?_⟩ <;> omega
  | succ fuel ih =>
    obtain ⟨ihv, ihi, ihp⟩ := ih
    refine ⟨fun room c h => ?_, fun room c done h => ?_, fun room c done h => ?_⟩
    · unfold readValue
      split
      · rfl
      · next r hr =>
        have := length_next_lt (c := c) (by simp [hr])
        split
        · rfl
        · split
          · rfl
          · rw [ihi _ _ _ (by omega)]
      · next r hr =>
        have := length_next_lt (c := c) (by simp [hr])
        split
        · rfl
        · split
          · rfl
          · rw [ihp _ _ _ (by omega)]
      · rfl
    · unfold readItems
      rw [ihv room c (by omega)]
      refine bind_congr_ok fun ⟨j, c₁⟩ hj => ?_
      have := (length_read _).1 _ _ _ _ hj
      have := length_skip_le c₁
      simp only
      split
      · rfl
      · next r hr =>
        have := length_next_lt (c := c₁.skip) (by simp [hr])
        exact ihi _ _ _ (by omega)
      · rfl
    · unfold readPairs
      split
      · next r hr =>
        have := length_move_one_lt (c := c) (by simp [hr])
        refine bind_congr_ok fun ⟨key, c₁⟩ hk => ?_
        have := length_readString hk
        have := length_skip_le c₁
        simp only
        split
        · next r₁ hr₁ =>
          have := length_next_lt (c := c₁.skip) (by simp [hr₁])
          rw [ihv _ _ (by omega)]
          refine bind_congr_ok fun ⟨j, c₂⟩ hj => ?_
          have := (length_read _).1 _ _ _ _ hj
          have := length_skip_le c₂
          simp only
          split
          · rfl
          · next r₂ hr₂ =>
            have := length_next_lt (c := c₂.skip) (by simp [hr₂])
            exact ihp _ _ _ (by omega)
          · rfl
        · rfl
      · rfl

/-- A value, with as many steps as it can take. -/
def valueAt (room : Nat) (c : Cursor) : Except Fault (Json × Cursor) :=
  readValue (2 * c.rest.length + 1) room c

def itemsAt (room : Nat) (c : Cursor) (done : List Json) : Except Fault (List Json × Cursor) :=
  readItems (2 * c.rest.length + 2) room c done

def pairsAt (room : Nat) (c : Cursor) (done : List (String × Json)) :
    Except Fault (List (String × Json) × Cursor) :=
  readPairs (2 * c.rest.length + 2) room c done

lemma readValue_eq (h : 2 * c.rest.length + 1 ≤ fuel) :
    readValue fuel room c = valueAt room c := by
  induction fuel, h using Nat.le_induction with
  | base => rfl
  | succ fuel h ih => rw [← (read_fuel fuel).1 room c h, ih]

lemma readItems_eq {done : List Json} (h : 2 * c.rest.length + 2 ≤ fuel) :
    readItems fuel room c done = itemsAt room c done := by
  induction fuel, h using Nat.le_induction with
  | base => rfl
  | succ fuel h ih => rw [← (read_fuel fuel).2.1 room c done h, ih]

lemma readPairs_eq {done : List (String × Json)} (h : 2 * c.rest.length + 2 ≤ fuel) :
    readPairs fuel room c done = pairsAt room c done := by
  induction fuel, h using Nat.le_induction with
  | base => rfl
  | succ fuel h ih => rw [← (read_fuel fuel).2.2 room c done h, ih]

end Conform.Json
