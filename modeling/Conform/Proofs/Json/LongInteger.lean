import Conform.Proofs.Json.Reached

/-!
Integers with too many digits. A text is refused for one exactly if a value is reached where one
begins, which no fraction and no exponent follows.
-/

namespace Conform.Json

open Fallible

variable {text cs : List Char} {c c' : Cursor} {j : Json} {room n : Nat}

/-- A text begins with an integer of so many digits, and they are too many. -/
structure LongInteger (cs : List Char) (count : Nat) : Prop where
  tooMany : digitLimit < count
  begins : ∃ minus digits rest, cs = minus ++ (digits ++ rest) ∧ (minus = [] ∨ minus = ['-']) ∧
    digits.length = count ∧ (∀ d ∈ digits, d.isDigit = true) ∧ digits.head? ≠ some '0' ∧
    (∀ d ∈ rest.head?, d.isDigit = false) ∧ fraction? rest = none ∧ exponent? rest = none

/-- While a text is read, a value is reached where an integer with too many digits begins. -/
def MeetsLongInteger (text : List Char) (count : Nat) : Prop :=
  ∃ room c, Reached text .value room c ∧ LongInteger c.rest count

lemma spanDigits_eq {ds rest : List Char} (hd : ∀ d ∈ ds, d.isDigit = true)
    (hr : ∀ d ∈ rest.head?, d.isDigit = false) : spanDigits (ds ++ rest) = (ds, rest) := by
  have hnil : rest.takeWhile Char.isDigit = [] ∧ rest.dropWhile Char.isDigit = rest := by
    cases rest with
    | nil => exact ⟨rfl, rfl⟩
    | cons a r =>
      have ha : a.isDigit = false := hr a rfl
      exact ⟨by simp [ha], by simp [ha]⟩
  rw [spanDigits, List.takeWhile_append_of_pos hd, List.dropWhile_append_of_pos hd, hnil.1,
    hnil.2, List.append_nil]

lemma spanDigits_spec {ds rest : List Char} (h : spanDigits cs = (ds, rest)) :
    cs = ds ++ rest ∧ (∀ d ∈ ds, d.isDigit = true) ∧ ∀ d ∈ rest.head?, d.isDigit = false := by
  have happ := spanDigits_append cs
  obtain ⟨rfl, rfl⟩ := Prod.mk.inj h
  refine ⟨happ.symm, fun d hd => List.mem_takeWhile_imp hd, fun d hd => ?_⟩
  have hnot := List.head?_dropWhile_not Char.isDigit cs
  rw [hd] at hnot
  exact hnot

/-- More than one digit before the point. -/
lemma whole_eq_some_iff {ds rest : List Char} (hl : 1 < ds.length) :
    whole? cs = some (ds, rest) ↔ cs = ds ++ rest ∧ (∀ d ∈ ds, d.isDigit = true) ∧
      ds.head? ≠ some '0' ∧ ∀ d ∈ rest.head?, d.isDigit = false := by
  constructor
  · intro h
    unfold whole? at h
    split at h
    · cases h
      exact absurd hl (Nat.lt_irrefl 1)
    · next hz =>
      have hspan : spanDigits cs = (ds, rest) := by
        simp only [Option.ite_none_left_eq_some, Option.some.injEq, Prod.mk.injEq] at h
        exact Prod.ext h.2.1 h.2.2
      obtain ⟨rfl, hd, hr⟩ := spanDigits_spec hspan
      refine ⟨rfl, hd, fun h0 => ?_, hr⟩
      obtain ⟨t, rfl⟩ := List.head?_eq_some_iff.mp h0
      exact hz (t ++ rest) rfl
  · rintro ⟨rfl, hd, h0, hr⟩
    have hspan := spanDigits_eq hd hr
    unfold whole?
    split
    · next r hz =>
      -- a leading zero would be the first of the digits
      cases ds with
      | nil => exact absurd hl (Nat.not_lt_zero 1)
      | cons d ds =>
        cases (List.cons.inj hz).1
        exact absurd rfl h0
    · rw [hspan]
      cases ds with
      | nil => exact absurd hl (Nat.not_lt_zero 1)
      | cons d ds => rfl

lemma readNumber_error : readNumber c = .error (.tooManyDigits n) ↔ LongInteger c.rest n := by
  constructor
  · intro h
    rcases readNumber_cases c with ⟨-, hr⟩ | ⟨ds, rest, hw, hr⟩
    · rw [hr] at h
      cases h
    · rcases hr with ⟨x, m, -, -, hr⟩ | ⟨hf, he, hl, hr⟩ | ⟨i, m, -, -, -, hr⟩ <;> rw [hr] at h <;>
        cases h
      have h1 : 1 < digitLimit := by decide
      obtain ⟨hcs, hd, h0, hnd⟩ := (whole_eq_some_iff (by omega)).mp hw
      obtain ⟨minus, hm, hmin⟩ := spanMinus_spec c.rest
      rw [hcs] at hm
      exact ⟨hl, minus, ds, rest, hm, hmin, rfl, hd, h0, hnd, hf, he⟩
  · rintro ⟨hl, minus, ds, rest, hcs, hmin, rfl, hd, h0, hnd, hf, he⟩
    have h1 : 1 < digitLimit := by decide
    have hm : (spanMinus c.rest).2 = ds ++ rest := by
      rcases hmin with rfl | rfl
      · rw [hcs]
        cases ds with
        | nil => exact absurd hl (Nat.not_lt_zero _)
        | cons d ds =>
          have hne : d ≠ '-' := fun h => absurd (hd d List.mem_cons_self) (by rw [h]; decide)
          simp [spanMinus, hne]
      · rw [hcs]
        rfl
    have hw : whole? (spanMinus c.rest).2 = some (ds, rest) := by
      rw [hm]
      exact (whole_eq_some_iff (by omega)).mpr ⟨rfl, hd, h0, hnd⟩
    simp only [readNumber, hw, hf, he, hl, if_true]

/-- The first character of a long integer is a minus or a digit. -/
lemma LongInteger.head (h : LongInteger cs n) :
    ∃ a r, cs = a :: r ∧ (a.isDigit = true ∨ (a = '-' ∧ ∀ b ∈ r.head?, b.isDigit = true)) := by
  obtain ⟨hl, minus, ds, rest, rfl, hmin, rfl, hd, -⟩ := h
  cases ds with
  | nil => exact absurd hl (Nat.not_lt_zero _)
  | cons d ds =>
    have hd0 : d.isDigit = true := hd d List.mem_cons_self
    rcases hmin with rfl | rfl
    · exact ⟨d, ds ++ rest, rfl, Or.inl hd0⟩
    · refine ⟨'-', d :: (ds ++ rest), rfl, Or.inr ⟨rfl, fun b hb => ?_⟩⟩
      cases hb
      exact hd0

lemma LongInteger.word_eq_none {w : String} {a : Char} {r : List Char} (h : LongInteger c.rest n)
    (hw : w.toList = a :: r)
    (ha : a.isDigit = false ∧ (a = '-' → ∃ b ∈ r.head?, b.isDigit = false)) :
    c.word? w = none := by
  obtain ⟨b, t, hcs, hb⟩ := h.head
  rw [Cursor.word?, hcs, hw]
  refine if_neg fun hp => ?_
  obtain ⟨rfl, hr⟩ := List.cons_prefix_cons.mp (List.isPrefixOf_iff_prefix.mp hp)
  rcases hb with hb | ⟨rfl, hb⟩
  · rw [ha.1] at hb
    cases hb
  · obtain ⟨x, hx, hxd⟩ := ha.2 rfl
    cases r with
    | nil => cases hx
    | cons y r =>
      cases hx
      obtain ⟨t', rfl⟩ := hr
      rw [hb x rfl] at hxd
      cases hxd

lemma readScalar_error : readScalar c = .error (.tooManyDigits n) ↔ LongInteger c.rest n := by
  constructor
  · intro h
    unfold readScalar at h
    iterate 6
      split at h
      · cases h
    exact readNumber_error.mp h
  · intro h
    have hno : ∀ {w a r}, w.toList = a :: r → a.isDigit = false ∧ a ≠ '-' → c.word? w = none :=
      fun hw ha => h.word_eq_none hw ⟨ha.1, fun hm => absurd hm ha.2⟩
    have hinf : c.word? "-Infinity" = none :=
      h.word_eq_none (r := "Infinity".toList) rfl ⟨by decide, fun _ => ⟨'I', rfl, by decide⟩⟩
    unfold readScalar
    rw [hno (w := "null") rfl (by decide), hno (w := "true") rfl (by decide),
      hno (w := "false") rfl (by decide), hno (w := "NaN") rfl (by decide),
      hno (w := "Infinity") rfl (by decide), hinf]
    exact readNumber_error.mpr h

/-! ### Values -/

lemma stringFrom_ne_tooManyDigits {start pos : Nat} {done : List Char} :
    stringFrom start cs pos done ≠ .error (.tooManyDigits n) := by
  fun_induction stringFrom start cs pos done <;> simp_all

/-- What an integer with too many digits makes of a value: it is the value, or is inside it. -/
lemma valueAt_error (h : valueAt room c = .error (.tooManyDigits n)) :
    (∃ r k, c.rest = '[' :: r ∧ room = k + 1 ∧ (∀ r', c.next.rest ≠ ']' :: r') ∧
      itemsAt k c.next [] = .error (.tooManyDigits n)) ∨
    (∃ r k, c.rest = '\x7b' :: r ∧ room = k + 1 ∧ (∀ r', c.next.rest ≠ '\x7d' :: r') ∧
      pairsAt k c.next [] = .error (.tooManyDigits n)) ∨
    LongInteger c.rest n := by
  have heq := h
  unfold valueAt readValue at h
  split at h
  · next r hr =>
    rcases bind_eq_error_iff.mp h with h | ⟨_, -, h⟩
    · exact absurd h stringFrom_ne_tooManyDigits
    · cases h
  · next r hr =>
    split at h
    · cases h
    · next k =>
      split at h
      · cases h
      · next hfill =>
        refine Or.inl ⟨r, k, hr, rfl, hfill, ?_⟩
        rw [valueAt_array hr hfill] at heq
        rcases bind_eq_error_iff.mp heq with heq | ⟨_, -, heq⟩
        · exact heq
        · cases heq
  · next r hr =>
    split at h
    · cases h
    · next k =>
      split at h
      · cases h
      · next hfill =>
        refine Or.inr (Or.inl ⟨r, k, hr, rfl, hfill, ?_⟩)
        rw [valueAt_object hr hfill] at heq
        rcases bind_eq_error_iff.mp heq with heq | ⟨_, -, heq⟩
        · exact heq
        · cases heq
  · exact Or.inr (Or.inr (readScalar_error.mp h))

lemma itemsAt_error {done : List Json} (h : itemsAt room c done = .error (.tooManyDigits n)) :
    valueAt room c = .error (.tooManyDigits n) ∨
    ∃ c' r done', Passes room c c' ∧ c'.rest = ',' :: r ∧
      itemsAt room c'.next done' = .error (.tooManyDigits n) := by
  have heq := h
  rw [itemsAt, readItems, ← valueAt] at h
  rcases bind_eq_error_iff.mp h with h | ⟨⟨j, c₁⟩, hv, h⟩
  · exact Or.inl h
  · simp only at h
    split at h
    · cases h
    · next r hr =>
      rw [itemsAt_of_ok done hv hr] at heq
      exact Or.inr ⟨c₁.skip, r, _, ⟨j, c₁, hv, rfl⟩, hr, heq⟩
    · cases h

lemma pairsAt_error {done : List (String × Json)}
    (h : pairsAt room c done = .error (.tooManyDigits n)) :
    ∃ c₁, PassesKey c c₁ ∧ (valueAt room c₁ = .error (.tooManyDigits n) ∨
      ∃ c₂ r done', Passes room c₁ c₂ ∧ c₂.rest = ',' :: r ∧
        pairsAt room c₂.next done' = .error (.tooManyDigits n)) := by
  have heq := h
  rw [pairsAt, readPairs] at h
  split at h
  · next r hr =>
    rcases bind_eq_error_iff.mp h with h | ⟨⟨key, k⟩, hs, h⟩
    · exact absurd h stringFrom_ne_tooManyDigits
    · simp only at h
      split at h
      · next r₁ hr₁ =>
        have hk : PassesKey c k.skip.next := ⟨r, key, k, r₁, hr, hs, hr₁, rfl⟩
        have hlt := hk.length_lt
        refine ⟨_, hk, ?_⟩
        rw [readValue_eq (by omega)] at h
        rcases bind_eq_error_iff.mp h with h | ⟨⟨j, c₂⟩, hv, h⟩
        · exact Or.inl h
        · simp only at h
          split at h
          · cases h
          · next r₂ hr₂ =>
            obtain ⟨key', heq'⟩ := pairsAt_of_ok done hk hv hr₂
            rw [heq'] at heq
            exact Or.inr ⟨c₂.skip, r₂, _, ⟨j, c₂, hv, rfl⟩, hr₂, heq⟩
          · cases h
      · cases h
  · cases h

/-! ### Texts -/

def FailsAfter (f : Fault) : Place → (room : Nat) → Cursor → Prop
  | .value, room, c => valueAt room c = .error f
  | .items, room, c => ∃ done, itemsAt room c done = .error f
  | .members, room, c => ∃ done, pairsAt room c done = .error f

/-- From a place that fails for an integer with too many digits, one is reached. -/
lemma reached_of_fails (size : Nat) {place : Place} (h : Reached text place room c)
    (hs : c.rest.length < size) (hf : FailsAfter (.tooManyDigits n) place room c) :
    MeetsLongInteger text n := by
  -- the text that is left gets shorter with every container and every comma
  induction size generalizing place room c with
  | zero => exact absurd hs (Nat.not_lt_zero _)
  | succ size ih =>
    have hvalue : ∀ {room c}, Reached text .value room c → c.rest.length < size + 1 →
        valueAt room c = .error (.tooManyDigits n) → MeetsLongInteger text n := by
      intro room c h hs hf
      rcases valueAt_error hf with ⟨r, k, hr, rfl, hfill, hf⟩ | ⟨r, k, hr, rfl, hfill, hf⟩ | hl
      · have := length_next_lt (c := c) (by simp [hr])
        exact ih (.items h hr hfill) (by omega) ⟨[], hf⟩
      · have := length_next_lt (c := c) (by simp [hr])
        exact ih (.members h hr hfill) (by omega) ⟨[], hf⟩
      · exact ⟨room, c, h, hl⟩
    cases place with
    | value => exact hvalue h hs hf
    | items =>
      obtain ⟨done, hf⟩ := hf
      rcases itemsAt_error hf with hf | ⟨c', r, done', hp, hr, hf⟩
      · exact hvalue (.item h) hs hf
      · have := hp.length_lt
        have := length_next_lt (c := c') (by simp [hr])
        exact ih (.nextItem h hp hr) (by omega) ⟨done', hf⟩
    | members =>
      obtain ⟨done, hf⟩ := hf
      obtain ⟨c₁, hk, hf | ⟨c₂, r, done', hp, hr, hf⟩⟩ := pairsAt_error hf
      · have := hk.length_lt
        exact hvalue (.member h hk) (by omega) hf
      · have := hk.length_lt
        have := hp.length_lt
        have := length_next_lt (c := c₂) (by simp [hr])
        exact ih (.nextMember h hk hp hr) (by omega) ⟨done', hf⟩

lemma LongInteger.valueAt_eq (h : LongInteger c.rest n) :
    valueAt room c = .error (.tooManyDigits n) := by
  obtain ⟨a, r, hcs, ha⟩ := h.head
  have hne : a ≠ '"' ∧ a ≠ '[' ∧ a ≠ '\x7b' := by
    rcases ha with ha | ⟨rfl, -⟩
    · refine ⟨?_, ?_, ?_⟩ <;> (rintro rfl; exact absurd ha (by decide))
    · decide
  unfold valueAt readValue
  split
  · next t ht => exact absurd (List.cons.inj (hcs.symm.trans ht)).1 hne.1
  · next t ht => exact absurd (List.cons.inj (hcs.symm.trans ht)).1 hne.2.1
  · next t ht => exact absurd (List.cons.inj (hcs.symm.trans ht)).1 hne.2.2
  · exact readScalar_error.mpr h

/-- **Integers with too many digits**: a text is refused for one exactly if a value is reached
where one begins. -/
theorem parse_tooManyDigits_iff :
    parse text = .error (.tooManyDigits n) ↔ MeetsLongInteger text n := by
  constructor
  · intro h
    by_cases hm : text.head? = some '\ufeff'
    · rw [parse, if_pos hm] at h
      cases h
    · rw [parse_eq hm] at h
      rcases bind_eq_error_iff.mp h with h | ⟨⟨j, c⟩, -, h⟩
      · exact reached_of_fails _ (.root hm) (Nat.lt_succ_self _) h
      · simp only at h
        split at h <;> cases h
  · rintro ⟨room, c, hr, hl⟩
    exact parse_of_reached hr hl.valueAt_eq

/-- Nothing but nines, too many of them. -/
lemma meetsLongInteger_nines (h : digitLimit < n) :
    MeetsLongInteger (List.replicate n '9') n := by
  obtain ⟨k, rfl⟩ : ∃ k, n = k + 1 := ⟨n - 1, by omega⟩
  have hskip : Cursor.skip ⟨List.replicate (k + 1) '9', 0⟩ = ⟨List.replicate (k + 1) '9', 0⟩ := by
    simp [Cursor.skip, Cursor.move, List.replicate_succ, isBlank]
  refine ⟨_, _, .root (by simp [List.replicate_succ]), h, [], List.replicate (k + 1) '9', [], ?_,
    Or.inl rfl, by simp, ?_, by simp [List.replicate_succ], by simp, rfl, rfl⟩
  · rw [hskip]
    simp
  · intro d hd
    rw [List.eq_of_mem_replicate hd]
    decide

end Conform.Json
