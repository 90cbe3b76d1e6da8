import Mathlib.Computability.Language
import Mathlib.Data.List.TakeWhile
import Conform.Proofs.Validator.Entry

/-!
The written forms of dates and times as languages over a set of digits. Each reader takes the words
of a language from the front of a text; a fraction is taken as far as it goes, which loses nothing,
since an offset begins with neither a point nor a digit. So a text passes exactly if it has the form
of its kind over the digits of all scripts. The forms over fewer digits are what is left of these
when the other digits are left out.
-/

namespace Conform.Temporal

open scoped Computability

def oneOf (p : Char → Prop) : Language Char := {w | ∃ c, p c ∧ w = [c]}

def marks (cs : List Char) : Language Char := oneOf (· ∈ cs)

section Forms

variable (D : Char → Prop)

def dates : Language Char :=
  oneOf D ^ 4 * (marks ['-'] * (oneOf D ^ 2 * (marks ['-'] * oneOf D ^ 2)))

def clocks : Language Char :=
  oneOf D ^ 2 * (marks [':'] * (oneOf D ^ 2 * (marks [':'] * oneOf D ^ 2)))

/-- Nothing, or a point and at least one digit. -/
def fractions : Language Char := 1 + marks ['.'] * (oneOf D * (oneOf D)∗)

def hourMinutes : Language Char := oneOf D ^ 2 * (marks [':'] * oneOf D ^ 2)

def offsets : Language Char := 1 + (marks ['Z', 'z'] + marks ['+', '-'] * hourMinutes D)

/-- The written form of each kind. -/
def forms : TemporalKind → Language Char
  | .dateTime => dates D * (marks ['T', 't', ' '] * clocks D) * (fractions D * offsets D)
  | .date => dates D
  | .time => clocks D * fractions D

end Forms

/-- A decimal digit of any script. -/
def IsDigit (c : Char) : Prop := Text.isDigit c.toNat = true

def IsAscii (c : Char) : Prop := c.isDigit = true

instance : DecidablePred IsDigit := fun c =>
  inferInstanceAs (Decidable (Text.isDigit c.toNat = true))

instance : DecidablePred IsAscii := fun c => inferInstanceAs (Decidable (c.isDigit = true))

variable {p q : Char → Prop} {L M : Language Char} {cs ds r w : List Char} {c : Char} {n : Nat}

lemma mem_oneOf : w ∈ oneOf p ↔ ∃ c, p c ∧ w = [c] := Iff.rfl

lemma cons_mem_oneOf : c :: w ∈ oneOf p ↔ p c ∧ w = [] := by
  rw [mem_oneOf]
  constructor
  · rintro ⟨d, hd, h⟩
    cases h
    exact ⟨hd, rfl⟩
  · rintro ⟨hc, rfl⟩
    exact ⟨c, hc, rfl⟩

lemma cons_mem_oneOf_mul : c :: w ∈ oneOf p * L ↔ p c ∧ w ∈ L := by
  rw [Language.mem_mul]
  constructor
  · rintro ⟨_, ⟨d, hd, rfl⟩, x, hx, h⟩
    cases h
    exact ⟨hd, hx⟩
  · rintro ⟨hc, hw⟩
    exact ⟨[c], ⟨c, hc, rfl⟩, w, hw, rfl⟩

lemma nil_notMem_oneOf_mul : [] ∉ oneOf p * L := by
  rw [Language.mem_mul]
  rintro ⟨_, ⟨d, -, rfl⟩, x, -, h⟩
  cases h

lemma mem_oneOf_pow : w ∈ oneOf p ^ n ↔ w.length = n ∧ ∀ c ∈ w, p c := by
  induction n generalizing w with
  | zero =>
    rw [pow_zero, Language.mem_one, List.length_eq_zero_iff]
    constructor
    · rintro rfl
      exact ⟨rfl, List.forall_mem_nil _⟩
    · exact And.left
  | succ n ih =>
    rw [pow_succ']
    cases w with
    | nil => exact iff_of_false nil_notMem_oneOf_mul (by simp)
    | cons c w =>
      rw [cons_mem_oneOf_mul, ih, List.length_cons, Nat.add_right_cancel_iff, List.forall_mem_cons]
      exact and_left_comm

lemma mem_oneOf_kstar : w ∈ (oneOf p)∗ ↔ ∀ c ∈ w, p c := by
  rw [Language.kstar_eq_iSup_pow, Language.mem_iSup]
  constructor
  · rintro ⟨n, hw⟩
    exact (mem_oneOf_pow.mp hw).2
  · exact fun h => ⟨w.length, mem_oneOf_pow.mpr ⟨rfl, h⟩⟩

/-! ### Readers -/

/-- A reader takes the words of a language, and nothing else, from the front of a text. -/
def Takes (read? : List Char → Option (List Char)) (L : Language Char) : Prop :=
  ∀ cs r, read? cs = some r ↔ ∃ w ∈ L, cs = w ++ r

section Readers

variable {f g : List Char → Option (List Char)}

lemma Takes.mul (hf : Takes f L) (hg : Takes g M) : Takes (fun cs => (f cs).bind g) (L * M) := by
  intro cs r
  rw [Option.bind_eq_some_iff]
  constructor
  · rintro ⟨r', hr', hr⟩
    obtain ⟨w, hw, rfl⟩ := (hf _ _).mp hr'
    obtain ⟨x, hx, rfl⟩ := (hg _ _).mp hr
    exact ⟨w ++ x, Language.append_mem_mul hw hx, (List.append_assoc w x r).symm⟩
  · rintro ⟨_, hwx, rfl⟩
    obtain ⟨w, hw, x, hx, rfl⟩ := Language.mem_mul.mp hwx
    exact ⟨x ++ r, (hf _ _).mpr ⟨w, hw, List.append_assoc w x r⟩, (hg _ _).mpr ⟨x, hx, rfl⟩⟩

lemma Takes.all (hf : Takes f L) : f cs = some [] ↔ cs ∈ L := by
  rw [hf]
  constructor
  · rintro ⟨w, hw, rfl⟩
    rwa [List.append_nil]
  · exact fun h => ⟨cs, h, (List.append_nil cs).symm⟩

/-- A text is taken to its end by a reader and a test for the rest. -/
lemma Takes.match_iff (hf : Takes f L) {test : List Char → Bool}
    (ht : ∀ r, test r = true ↔ r ∈ M) :
    (match f cs with
      | some r => test r
      | none => false) = true ↔ cs ∈ L * M := by
  rw [Language.mem_mul]
  constructor
  · intro h
    split at h
    · next r hr =>
      obtain ⟨w, hw, rfl⟩ := (hf _ _).mp hr
      exact ⟨w, hw, r, (ht r).mp h, rfl⟩
    · cases h
  · rintro ⟨w, hw, r, hr, rfl⟩
    rw [(hf _ _).mpr ⟨w, hw, rfl⟩]
    exact (ht r).mpr hr

lemma takes_char {test : Char → Bool} (h : ∀ c, test c = true ↔ p c) :
    Takes (char? test) (oneOf p) := by
  intro cs r
  cases cs with
  | nil => simp [char?, mem_oneOf]
  | cons c cs =>
    simp only [char?, Option.ite_none_right_eq_some, Option.some.injEq, mem_oneOf, h]
    constructor
    · rintro ⟨hc, rfl⟩
      exact ⟨[c], ⟨c, hc, rfl⟩, rfl⟩
    · rintro ⟨_, ⟨d, hd, rfl⟩, heq⟩
      cases heq
      exact ⟨hd, rfl⟩

lemma takes_mark (c : Char) : Takes (char? (· == c)) (marks [c]) := takes_char (by simp)

lemma takes_digits (n : Nat) : Takes (digits? n) (oneOf IsDigit ^ n) := by
  induction n with
  | zero =>
    intro cs r
    simp [digits?]
  | succ n ih =>
    intro cs r
    rw [pow_succ']
    cases cs with
    | nil =>
      refine iff_of_false nofun ?_
      rintro ⟨w, hw, hnil⟩
      rw [(List.append_eq_nil_iff.mp hnil.symm).1] at hw
      exact nil_notMem_oneOf_mul hw
    | cons c cs =>
      simp only [digits?, Option.ite_none_right_eq_some, ih cs r]
      constructor
      · rintro ⟨hc, w, hw, rfl⟩
        exact ⟨c :: w, cons_mem_oneOf_mul.mpr ⟨hc, hw⟩, rfl⟩
      · rintro ⟨w, hw, heq⟩
        cases w with
        | nil => exact absurd hw nil_notMem_oneOf_mul
        | cons d w =>
          cases heq
          obtain ⟨hd, hw⟩ := cons_mem_oneOf_mul.mp hw
          exact ⟨hd, w, hw, rfl⟩

lemma takes_date : Takes date? (dates IsDigit) :=
  (takes_digits 4).mul ((takes_mark '-').mul
    ((takes_digits 2).mul ((takes_mark '-').mul (takes_digits 2))))

lemma takes_clock : Takes clock? (clocks IsDigit) :=
  (takes_digits 2).mul ((takes_mark ':').mul
    ((takes_digits 2).mul ((takes_mark ':').mul (takes_digits 2))))

end Readers

/-! ### Fractions and offsets -/

lemma nil_notMem_hourMinutes : [] ∉ hourMinutes p := by
  rw [hourMinutes, pow_succ', mul_assoc]
  exact nil_notMem_oneOf_mul

lemma takes_hourMinutes :
    Takes (fun cs => (digits? 2 cs).bind fun cs => (char? (· == ':') cs).bind (digits? 2))
      (hourMinutes IsDigit) :=
  (takes_digits 2).mul ((takes_mark ':').mul (takes_digits 2))

lemma cons_mem_offsets :
    c :: w ∈ offsets p ↔
      c ∈ ['Z', 'z'] ∧ w = [] ∨ c ∈ ['+', '-'] ∧ w ∈ hourMinutes p := by
  rw [offsets, Language.mem_add, Language.mem_add, Language.mem_one, marks, marks, cons_mem_oneOf,
    cons_mem_oneOf_mul]
  simp

lemma isOffset_iff : isOffset cs = true ↔ cs ∈ offsets IsDigit := by
  unfold isOffset
  split
  · exact iff_of_true rfl (Or.inl rfl)
  · next c => simp [cons_mem_offsets, nil_notMem_hourMinutes]
  · next c r hr =>
    have hne : r ≠ [] := hr
    have hminutes : _ ↔ r ∈ hourMinutes IsDigit := takes_hourMinutes.all
    simp only [Bool.and_eq_true, Bool.or_eq_true, beq_iff_eq, cons_mem_offsets, hne, and_false,
      false_or, List.mem_cons, List.not_mem_nil, or_false, ← hminutes]

/-- Neither a point nor a digit goes on a fraction. -/
def EndsFraction (r : List Char) : Prop := ∀ c ∈ r.head?, c ≠ '.' ∧ ¬IsDigit c

lemma fraction_of_ends (h : EndsFraction r) : fraction r = r := by
  unfold fraction
  split
  · exact absurd rfl (h '.' rfl).1
  · rfl

lemma dropWhile_digits (hds : ∀ d ∈ ds, IsDigit d) (h : EndsFraction r) :
    (ds ++ r).dropWhile (fun d => Text.isDigit d.toNat) = r := by
  rw [List.dropWhile_append_of_pos hds]
  cases r with
  | nil => rfl
  | cons c r => exact List.dropWhile_cons_of_neg (h c rfl).2

lemma mem_fractions :
    w ∈ fractions p ↔ w = [] ∨ ∃ d ds, p d ∧ (∀ x ∈ ds, p x) ∧ w = '.' :: d :: ds := by
  rw [fractions, Language.mem_add, Language.mem_one]
  refine or_congr_right ?_
  rcases w with - | ⟨c, - | ⟨d, ds⟩⟩
  · exact iff_of_false nil_notMem_oneOf_mul (by simp)
  · simp [marks, cons_mem_oneOf_mul, nil_notMem_oneOf_mul]
  · simp [marks, cons_mem_oneOf_mul, mem_oneOf_kstar, and_left_comm]

/-- A fraction is taken as far as it goes. -/
lemma fraction_append (hw : w ∈ fractions IsDigit) (h : EndsFraction r) :
    fraction (w ++ r) = r := by
  rcases mem_fractions.mp hw with rfl | ⟨d, ds, hd, hds, rfl⟩
  · exact fraction_of_ends h
  · exact (if_pos hd).trans (dropWhile_digits hds h)

lemma exists_append_fraction (cs : List Char) :
    ∃ w ∈ fractions IsDigit, cs = w ++ fraction cs := by
  unfold fraction
  split
  · next c r =>
    split
    · next hc =>
      have hdigits : ∀ d ∈ r.takeWhile fun d => Text.isDigit d.toNat, IsDigit d :=
        fun d => List.mem_takeWhile_imp (p := fun d : Char => Text.isDigit d.toNat)
      refine ⟨'.' :: c :: r.takeWhile fun d => Text.isDigit d.toNat, ?_, ?_⟩
      · exact mem_fractions.mpr (Or.inr ⟨c, _, hc, hdigits, rfl⟩)
      · rw [List.cons_append, List.cons_append, List.takeWhile_append_dropWhile]
    · exact ⟨[], mem_fractions.mpr (Or.inl rfl), rfl⟩
  · exact ⟨[], mem_fractions.mpr (Or.inl rfl), rfl⟩

/-- What follows the fraction is looked at behind all of its digits. -/
lemma fraction_mem_iff (hM : ∀ r ∈ M, EndsFraction r) :
    fraction cs ∈ M ↔ cs ∈ fractions IsDigit * M := by
  rw [Language.mem_mul]
  constructor
  · intro h
    obtain ⟨w, hw, hcs⟩ := exists_append_fraction cs
    exact ⟨w, hw, fraction cs, h, hcs.symm⟩
  · rintro ⟨w, hw, r, hr, rfl⟩
    rwa [fraction_append hw (hM r hr)]

lemma endsFraction_of_mem_offsets (h : r ∈ offsets p) : EndsFraction r := by
  rintro c hc
  cases r with
  | nil => cases hc
  | cons d r =>
    cases hc
    have hmem : c ∈ ['Z', 'z'] ++ ['+', '-'] :=
      List.mem_append.mpr ((cons_mem_offsets.mp h).imp And.left And.left)
    have hall : ∀ c ∈ ['Z', 'z'] ++ ['+', '-'], c ≠ '.' ∧ ¬IsDigit c :=
      List.forall_iff_forall_mem.mp (by decide)
    exact hall c hmem

lemma isDate_iff {s : String} : isDate s = true ↔ s.toList ∈ dates IsDigit := by
  rw [isDate, beq_iff_eq, takes_date.all]

lemma isTime_iff {s : String} :
    isTime s = true ↔ s.toList ∈ clocks IsDigit * fractions IsDigit := by
  refine takes_clock.match_iff fun r => ?_
  have hend : ∀ r ∈ (1 : Language Char), EndsFraction r := by
    rintro r rfl c ⟨⟩
  rw [List.isEmpty_iff, ← Language.mem_one, fraction_mem_iff hend, mul_one]

lemma isDateTime_iff {s : String} :
    isDateTime s = true ↔ s.toList ∈ forms IsDigit .dateTime := by
  have hboth : Takes (fun cs => (date? cs).bind fun cs =>
      (char? (fun c => c == 'T' || c == 't' || c == ' ') cs).bind clock?)
      (dates IsDigit * (marks ['T', 't', ' '] * clocks IsDigit)) :=
    takes_date.mul (Takes.mul (takes_char (by simp [or_assoc])) takes_clock)
  refine hboth.match_iff fun r => ?_
  rw [isOffset_iff, fraction_mem_iff fun r => endsFraction_of_mem_offsets]

/-- A text passes exactly if it has the form of the kind over the digits of all scripts. -/
theorem holds_iff {k : TemporalKind} {s : String} :
    k.holds s = true ↔ s.toList ∈ forms IsDigit k := by
  cases k with
  | dateTime => exact isDateTime_iff
  | date => exact isDate_iff
  | time => exact isTime_iff

/-! ### Fewer digits -/

/-- The words of a language that are made of the characters of a set. -/
def madeOf (q : Char → Prop) : Language Char →+* Language Char where
  toFun L := {w | w ∈ L ∧ ∀ c ∈ w, q c}
  map_zero' := by
    ext w
    exact iff_of_false (fun h => h.1) (Language.notMem_zero w)
  map_one' := by
    ext w
    refine ⟨And.left, ?_⟩
    rintro rfl
    exact ⟨rfl, List.forall_mem_nil _⟩
  map_add' L M := by
    ext w
    exact or_and_right
  map_mul' L M := by
    ext w
    constructor
    · rintro ⟨⟨x, hx, y, hy, rfl⟩, h⟩
      obtain ⟨hqx, hqy⟩ := List.forall_mem_append.mp h
      exact ⟨x, ⟨hx, hqx⟩, y, ⟨hy, hqy⟩, rfl⟩
    · rintro ⟨x, ⟨hx, hqx⟩, y, ⟨hy, hqy⟩, rfl⟩
      exact ⟨⟨x, hx, y, hy, rfl⟩, List.forall_mem_append.mpr ⟨hqx, hqy⟩⟩

lemma mem_madeOf : w ∈ madeOf q L ↔ w ∈ L ∧ ∀ c ∈ w, q c := Iff.rfl

lemma madeOf_oneOf : madeOf q (oneOf p) = oneOf fun c => p c ∧ q c := by
  ext w
  constructor
  · rintro ⟨⟨c, hc, rfl⟩, h⟩
    exact ⟨c, ⟨hc, List.forall_mem_singleton.mp h⟩, rfl⟩
  · rintro ⟨c, ⟨hc, hq⟩, rfl⟩
    exact ⟨⟨c, hc, rfl⟩, List.forall_mem_singleton.mpr hq⟩

lemma madeOf_kstar : madeOf q (oneOf p)∗ = (oneOf fun c => p c ∧ q c)∗ := by
  ext w
  rw [mem_madeOf, mem_oneOf_kstar, mem_oneOf_kstar, ← forall₂_and]

def allMarks : List Char := ['-', ':', '.', 'T', 't', ' ', 'Z', 'z', '+']

lemma madeOf_marks (h : ∀ c ∈ allMarks, q c) (hcs : cs ⊆ allMarks) :
    madeOf q (marks cs) = marks cs := by
  rw [marks, madeOf_oneOf]
  exact congrArg oneOf (funext fun c => propext (and_iff_left_of_imp fun hc => h c (hcs hc)))

/-- What is left of a form over digits when some are left out is the form over the others. -/
lemma madeOf_forms (h : ∀ c ∈ allMarks, q c) (k : TemporalKind) :
    madeOf q (forms p k) = forms (fun c => p c ∧ q c) k := by
  cases k <;>
    simp (disch := decide) only [forms, dates, clocks, fractions, offsets, hourMinutes, map_add,
      map_mul, map_pow, map_one, madeOf_oneOf, madeOf_kstar, madeOf_marks h]

lemma isDigit_of_isAscii (h : IsAscii c) : IsDigit c := by
  obtain ⟨hlo, hhi⟩ := Char.isDigit_iff_toNat.mp h
  have hzero : '0'.toNat = 0x30 := rfl
  have hnine : '9'.toNat = 0x39 := rfl
  rw [IsDigit, Text.isDigit, Text.digitBounds, Text.covers, if_neg (by omega), if_pos (by omega)]

/-- A text has a form over the ASCII digits exactly if it has the form over all digits and has no
other digits. -/
lemma mem_forms_ascii {k : TemporalKind} :
    w ∈ forms IsAscii k ↔ w ∈ forms IsDigit k ∧ ∀ c ∈ w, IsDigit c → IsAscii c := by
  have hmarks : ∀ c ∈ allMarks, IsDigit c → IsAscii c := List.forall_iff_forall_mem.mp (by decide)
  have hboth : (fun c => IsDigit c ∧ (IsDigit c → IsAscii c)) = IsAscii :=
    funext fun c => propext ⟨fun h => h.2 h.1, fun h => ⟨isDigit_of_isAscii h, fun _ => h⟩⟩
  rw [← mem_madeOf, madeOf_forms hmarks, hboth]

open Validator in
/-- **Written forms**: a text passes as a date-time, date or time if it has the form of the kind
over the digits of all scripts, and is told of once if it has not. So it has the form over the
digits of ASCII exactly if it passes and has no digits of other scripts. -/
theorem formFindings_forms {v : Value} {text : String} (hv : v.text? = some text)
    (k : TemporalKind) (path : String) :
    (text.toList ∈ forms IsDigit k → formFindings (.temporal k) path v = []) ∧
    (text.toList ∉ forms IsDigit k →
      formFindings (.temporal k) path v = [.invalidDateTime path k.form text]) ∧
    (text.toList ∈ forms IsAscii k ↔ formFindings (.temporal k) path v = [] ∧
      ∀ c ∈ text.toList, IsDigit c → IsAscii c) := by
  have hpass : formFindings (.temporal k) path v = [] ↔ text.toList ∈ forms IsDigit k := by
    rw [← holds_iff]
    simp [formFindings, hv]
  refine ⟨hpass.mpr, fun h => ?_, ?_⟩
  · rw [← holds_iff] at h
    simp [formFindings, hv, h]
  · rw [hpass, mem_forms_ascii]

open Validator in
/-- A date and a time of day with all parts that may be left out, as a text of a document. -/
theorem formFindings_forms_full :
    let text := "2024-02-29t23:59:60.5-05:30"
    (Value.string text).text? = some text ∧ text.toList ∈ forms IsAscii .dateTime ∧
      formFindings (.temporal .dateTime) "$" (.string text) = [] := by
  intro text
  have hpass : formFindings (.temporal .dateTime) "$" (.string text) = [] := by decide +kernel
  have hdigits : ∀ c ∈ text.toList, IsDigit c → IsAscii c :=
    List.forall_iff_forall_mem.mp (by decide +kernel)
  obtain ⟨-, -, hascii⟩ := formFindings_forms (v := .string text) rfl .dateTime "$"
  exact ⟨rfl, hascii.mpr ⟨hpass, hdigits⟩, hpass⟩

open Validator in
/-- A date in fullwidth digits passes, and has not the form over the digits of ASCII. -/
theorem fullwidth_date_passes :
    ¬(formFindings (.temporal .date) "$" (.string "２０２４-０２-２９") = [] ↔
      "２０２４-０２-２９".toList ∈ forms IsAscii .date) := by
  have hpass : formFindings (.temporal .date) "$" (.string "２０２４-０２-２９") = [] := by
    decide +kernel
  intro h
  have hdigits := (mem_forms_ascii.mp (h.mp hpass)).2
  exact absurd (hdigits '２' (by decide +kernel) (by decide +kernel)) (by decide)

end Conform.Temporal
