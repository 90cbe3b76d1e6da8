import Conform.Proofs.Temporal.Forms
import Conform.Value.OfToml

/-!
The three kinds of dates and times apart. The third character of a text and its length tell which
form it can have, so no text has two. What is in the calendar is written with just so many digits to
each part, and has the form of its own kind.
-/

namespace Conform

namespace Temporal

variable {D : Char → Prop} {L : Language Char} {cs w : List Char} {k k' : TemporalKind}

lemma mem_marks_mul_iff : w ∈ marks cs * L ↔ ∃ c ∈ cs, ∃ x ∈ L, w = c :: x := by
  cases w with
  | nil => exact iff_of_false nil_notMem_oneOf_mul (by simp)
  | cons c w => simp [marks, cons_mem_oneOf_mul]

/-- The only kind whose form a text can have: a colon stands third in a time, and a date alone has
ten characters. -/
def kindOf (w : List Char) : TemporalKind :=
  if w[2]? = some ':' then .time else if w.length = 10 then .date else .dateTime

lemma dates_spec (hD : ¬D ':') (h : w ∈ dates D) : w.length = 10 ∧ w[2]? ≠ some ':' := by
  obtain ⟨year, hyear, _, h₁, rfl⟩ := Language.mem_mul.mp h
  obtain ⟨-, -, _, h₂, rfl⟩ := mem_marks_mul_iff.mp h₁
  obtain ⟨month, hmonth, _, h₃, rfl⟩ := Language.mem_mul.mp h₂
  obtain ⟨-, -, day, hday, rfl⟩ := mem_marks_mul_iff.mp h₃
  obtain ⟨hyear, hdigits⟩ := mem_oneOf_pow.mp hyear
  obtain ⟨hmonth, -⟩ := mem_oneOf_pow.mp hmonth
  obtain ⟨hday, -⟩ := mem_oneOf_pow.mp hday
  refine ⟨by simp [hyear, hmonth, hday], fun hthird => hD ?_⟩
  rw [List.getElem?_append_left (by omega)] at hthird
  exact hdigits _ (List.mem_of_getElem? hthird)

lemma clocks_spec (h : w ∈ clocks D) : ∃ hour r, hour.length = 2 ∧ w = hour ++ ':' :: r := by
  obtain ⟨hour, hhour, _, hr, rfl⟩ := Language.mem_mul.mp h
  obtain ⟨c, hc, r, -, rfl⟩ := mem_marks_mul_iff.mp hr
  cases List.mem_singleton.mp hc
  exact ⟨hour, r, (mem_oneOf_pow.mp hhour).1, rfl⟩

lemma kindOf_of_mem (hD : ¬D ':') (h : w ∈ forms D k) : kindOf w = k := by
  cases k with
  | dateTime =>
    obtain ⟨_, ⟨date, hdate, _, hr, rfl⟩, rest, -, rfl⟩ := h
    obtain ⟨c, -, clock, -, rfl⟩ := mem_marks_mul_iff.mp hr
    obtain ⟨hlen, hthird⟩ := dates_spec hD hdate
    have hfront : (date ++ (c :: clock ++ rest))[2]? = date[2]? :=
      List.getElem?_append_left (by omega)
    rw [← hfront] at hthird
    simp only [List.append_assoc, kindOf, if_neg hthird]
    simp [hlen]
  | date =>
    obtain ⟨hlen, hthird⟩ := dates_spec hD h
    rw [kindOf, if_neg hthird, if_pos hlen]
  | time =>
    obtain ⟨_, hclock, rest, -, rfl⟩ := Language.mem_mul.mp h
    obtain ⟨hour, r, hlen, rfl⟩ := clocks_spec hclock
    simp [kindOf, hlen]

theorem eq_of_mem_forms (h : w ∈ forms IsDigit k) (h' : w ∈ forms IsDigit k') : k = k' := by
  have hcolon : ¬IsDigit ':' := by decide
  rw [← kindOf_of_mem hcolon h, kindOf_of_mem hcolon h']

end Temporal

/-! ### What the calendar has -/

namespace Toml

open Temporal

variable {n width : Nat}

lemma toList_padded (h : n < 10 ^ width) (hw : 0 < width) :
    (padded width n).toList ∈ oneOf IsAscii ^ width := by
  have hlen := (Nat.length_toDigits_le_iff (by decide) hw).mpr h
  rw [mem_oneOf_pow, padded, String.toList_ofList, List.forall_mem_append]
  refine ⟨by simp; omega, fun c hc => ?_, fun c hc => ?_⟩
  · rw [List.eq_of_mem_replicate hc]
    decide
  · exact Nat.isDigit_of_mem_toDigits (by decide) (by decide) hc

lemma two_digits (h : n < 100) : (padded 2 n).toList ∈ oneOf IsAscii ^ 2 :=
  toList_padded h (by decide)

lemma mark {c : Char} {cs : List Char} (h : c ∈ cs) : [c] ∈ marks cs := ⟨c, h, rfl⟩

lemma Date.text_mem (d : Date) : d.text.toList ∈ dates IsAscii := by
  obtain ⟨-, hyear, -, hmonth, -, hday⟩ := d.valid
  have hdays : daysIn d.year d.month ≤ 31 := by
    unfold daysIn
    split
    · split <;> omega
    · split <;> omega
  simp only [Date.text, String.toList_append, List.append_assoc]
  exact Language.append_mem_mul (toList_padded (by omega) (by decide))
    (Language.append_mem_mul (mark (by decide)) (Language.append_mem_mul (two_digits (by omega))
      (Language.append_mem_mul (mark (by decide)) (two_digits (by omega)))))

/-- Microseconds are a fraction of six digits, or left out. -/
lemma fraction_mem {n : Nat} (h : n < 10 ^ 6) :
    (if n = 0 then "" else "." ++ padded 6 n).toList ∈ fractions IsAscii := by
  split
  · exact Or.inl rfl
  · obtain ⟨hlen, hdigits⟩ := mem_oneOf_pow.mp (toList_padded h (by decide))
    obtain ⟨d, ds, hds⟩ := List.exists_cons_of_length_pos (Nat.lt_of_lt_of_eq (by decide) hlen.symm)
    rw [hds] at hdigits
    obtain ⟨hd, hrest⟩ := List.forall_mem_cons.mp hdigits
    exact mem_fractions.mpr (Or.inr ⟨d, ds, hd, hrest, by rw [String.toList_append, hds]; rfl⟩)

lemma Time.text_mem (t : Time) : t.text.toList ∈ clocks IsAscii * fractions IsAscii := by
  obtain ⟨hhour, hminute, hsecond, hmicrosecond⟩ := t.valid
  rw [Time.text, String.toList_append]
  refine Language.append_mem_mul ?_ (fraction_mem hmicrosecond)
  simp only [String.toList_append, List.append_assoc]
  exact Language.append_mem_mul (two_digits (by omega)) (Language.append_mem_mul (mark (by decide))
    (Language.append_mem_mul (two_digits (by omega))
      (Language.append_mem_mul (mark (by decide)) (two_digits (by omega)))))

/-- An offset is less than a day, so two digits are enough for its hours. -/
lemma Offset.text_mem (o : Offset) : o.text.toList ∈ offsets IsAscii := by
  have hday := o.valid
  refine Or.inr (Or.inr ?_)
  simp only [Offset.text, String.toList_append, List.append_assoc]
  refine Language.append_mem_mul ?_ (Language.append_mem_mul (two_digits (by omega))
    (Language.append_mem_mul (mark (by decide)) (two_digits (by omega))))
  split <;> exact mark (by decide)

inductive Item.InCalendar : TemporalKind → Item → Prop where
  | dateTime (t : DateTime) : InCalendar .dateTime (.dateTime t)
  | date (d : Date) : InCalendar .date (.date d)
  | time (t : Time) : InCalendar .time (.time t)

/-- What is in the calendar is written in the form of its kind. -/
lemma Item.InCalendar.text_mem {k : TemporalKind} {i : Item} (h : i.InCalendar k) :
    ∃ text, Value.ofToml i = .temporal k text ∧ text.toList ∈ forms IsAscii k := by
  cases h with
  | date d => exact ⟨_, rfl, d.text_mem⟩
  | time t => exact ⟨_, rfl, t.text_mem⟩
  | dateTime t =>
    refine ⟨_, rfl, ?_⟩
    have hform : forms IsAscii .dateTime = dates IsAscii *
        (marks ['T', 't', ' '] * (clocks IsAscii * fractions IsAscii * offsets IsAscii)) := by
      simp only [forms, mul_assoc]
    rw [hform, DateTime.text]
    simp only [String.toList_append, List.append_assoc]
    refine Language.append_mem_mul t.date.text_mem (Language.append_mem_mul (mark (by decide))
      (Language.append_mem_mul t.time.text_mem ?_))
    split
    · next o _ => exact o.text_mem
    · exact Or.inl rfl

end Toml

/-! ### The kinds apart -/

namespace Temporal

open Validator Toml

/-- A date or time is accepted as all three types, and its text decides. -/
lemma typeFindings_temporal {k k' : TemporalKind} {p : Site} {text : String} :
    typeFindings .toml k'.name p (.temporal k text) =
      if k'.holds text then [] else [.invalidDateTime p.path k'.form text] := by
  cases k' <;> rfl

/-- **The kinds apart**: no text passes as two of the three kinds. A date-time, date or time of the
calendar is accepted as each of the three types, passes as its own kind and is told of once as
either other. -/
theorem kinds_apart :
    (∀ (v : Value) (text path : String) (k k' : TemporalKind), v.text? = some text →
      formFindings (.temporal k) path v = [] → formFindings (.temporal k') path v = [] → k = k') ∧
    ∀ (k : TemporalKind) (i : Item), i.InCalendar k → ∃ text,
      Value.ofToml i = .temporal k text ∧ ∀ (k' : TemporalKind) (p : Site),
        (TypeRule.temporal k').accepts .toml (Value.ofToml i) = true ∧
        typeFindings .toml k'.name p (Value.ofToml i) =
          if k' = k then [] else [.invalidDateTime p.path k'.form text] := by
  refine ⟨fun v text path k k' hv hk hk' => ?_, fun k i hi => ?_⟩
  · rw [formFindings_eq_nil_iff] at hk hk'
    exact eq_of_mem_forms (holds_iff.mp (hk k text rfl hv)) (holds_iff.mp (hk' k' text rfl hv))
  · obtain ⟨text, hv, hascii⟩ := hi.text_mem
    have hform := (mem_forms_ascii.mp hascii).1
    refine ⟨text, hv, fun k' p => ?_⟩
    rw [hv, typeFindings_temporal]
    refine ⟨rfl, ?_⟩
    by_cases hk : k' = k
    · rw [hk, if_pos (holds_iff.mpr hform), if_pos rfl]
    · have hno : ¬k'.holds text = true := fun h => hk (eq_of_mem_forms (holds_iff.mp h) hform)
      rw [if_neg hno, if_neg hk]

/-- A leap day with all parts, written out and taken for a date. -/
theorem kinds_apart_leapDay :
    let text := "2024-02-29T23:59:59.000001-05:30"
    let i : Item := .dateTime
      ⟨⟨2024, 2, 29, by decide⟩, ⟨23, 59, 59, 1, by decide⟩, some ⟨-330, by decide⟩⟩
    i.InCalendar .dateTime ∧ Value.ofToml i = .temporal .dateTime text ∧
      typeFindings .toml "dateTime" ⟨"$.a", 1, false⟩ (Value.ofToml i) = [] ∧
      typeFindings .toml "date" ⟨"$.a", 1, false⟩ (Value.ofToml i) =
        [.invalidDateTime "$.a" "date (YYYY-MM-DD)" text] ∧
      formFindings (.temporal .dateTime) "$.a" (.string text) = [] ∧
      formFindings (.temporal .time) "$.a" (.string text) ≠ [] := by
  intro text i
  obtain ⟨hone, hcalendar⟩ := kinds_apart
  have hi : i.InCalendar .dateTime := .dateTime _
  obtain ⟨text', hv, hfindings⟩ := hcalendar _ i hi
  have htext : Value.ofToml i = .temporal .dateTime text :=
    congrArg (Value.temporal .dateTime) (by decide +kernel)
  cases htext.symm.trans hv
  have hpass : formFindings (.temporal .dateTime) "$.a" (.string text) = [] := by decide +kernel
  refine ⟨hi, htext, (hfindings .dateTime _).2, (hfindings .date _).2, hpass, ?_⟩
  intro htime
  cases hone (.string text) text "$.a" _ _ rfl hpass htime

end Temporal

end Conform
