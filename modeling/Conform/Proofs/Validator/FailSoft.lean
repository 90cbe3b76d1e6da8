import Conform.Proofs.Document
import Conform.Proofs.Validator.Findings

/-!
Failing softly. A pattern that is refused for its syntax is a finding of the text that is checked,
and every other check is made as if it were not there. What does end everything is a pattern that
is refused for more than its syntax, and an integer that cannot be written; the numbers of a JSON
document all can.
-/

namespace Conform.Validator

open Fallible

variable {e : Setup} {v x : Value} {s t : Schema} {p q : Site} {i : Interruption} {path : String}
  {source : String}

def faultyTextFindings (s : Schema) (p : Site) (v : Value) (text source : String)
    (fault : Pattern.Fault) : List Finding :=
  malformedFindings s p.path ++ lengthFindings s p.path text.length ++
    .other p.path ("Invalid regex pattern in schema: " ++ fault.message source.toList) ::
      enumFindings s p.path v

lemma walk_of_faulty {text : String} {fault : Pattern.Fault} (he : Entered e v s p)
    (ht : v.text? = some text) (hs : s.pattern = some source)
    (hc : Pattern.compile source = .error (.fault fault)) :
    walk e v s p = Notice.ofFindings (faultyTextFindings s p v text source fault) := by
  have htext : textNotices s p.path text (v.display Value.displayLimit) =
      Notice.ofFindings (lengthFindings s p.path text.length ++
        [.other p.path ("Invalid regex pattern in schema: " ++ fault.message source.toList)]) := by
    simp [textNotices, patternNotices, hs, hc, Notice.ofFindings]
  have hentry := entry_findings_of_entered he
  cases v with
  | string | temporal =>
    cases ht
    rw [walk, around, if_pos (enters_iff.mpr he), htext, hentry]
    simp [faultyTextFindings, Notice.ofFindings]
  | object | array | number | boolean | null => cases ht

lemma infix_of_ofFindings {fs gs : List Finding}
    (h : Notice.ofFindings fs <:+: Notice.ofFindings gs) : fs <:+: gs := by
  obtain ⟨l, hl, hm⟩ := List.infix_map_iff.mp h
  rwa [(List.map_inj_right fun _ _ => Except.ok.inj).mp hm]

/-- A text with a faulty pattern has its findings, one after the other, among all of them. -/
lemma faulty_infix_of_validate {text : String} {fault : Pattern.Fault} {fs : List Finding}
    (h : validate e v s path = .ok fs) (hx : Checked e v s (Site.ofRoot path) x t q)
    (he : Entered e x t q) (ht : x.text? = some text) (hs : t.pattern = some source)
    (hc : Pattern.compile source = .error (.fault fault)) :
    faultyTextFindings t q x text source fault <:+: fs := by
  refine infix_of_ofFindings ?_
  rw [← walk_of_faulty he ht hs hc, ← Notice.eq_ofFindings_of_gather h]
  exact walk_infix_of_checked hx

/-! ### Documents that were JSON -/

/-- What is checked in a JSON document is a part of it, with numbers that can be written. -/
lemma writable_of_checked {j : Json} (h : Checked e (Value.ofJson j) s p x t q)
    (hj : Json.Writable j) : ∃ k, x = Value.ofJson k ∧ Json.Writable k := by
  generalize hv : Value.ofJson j = v at h
  induction h with
  | root => exact ⟨j, hv.symm, hj⟩
  | member _ _ hm _ ih =>
    obtain ⟨k, hk, hkw⟩ := ih
    cases k with
    | object ms =>
      rw [Value.ofJson, Value.object.injEq, Value.ofMembers_eq_map] at hk
      rw [hk] at hm
      obtain ⟨m, hmem, hmx⟩ := List.mem_map.mp hm
      cases hmx
      exact ⟨m.2, rfl, Json.writable_object.mp hkw m hmem⟩
    | null | bool | number | string | array => cases hk
  | item _ _ hi _ ih =>
    obtain ⟨k, hk, hkw⟩ := ih
    cases k with
    | array js =>
      rw [Value.ofJson, Value.array.injEq, Value.ofItems_eq_map] at hk
      rw [hk] at hi
      obtain ⟨l, hl, rfl⟩ := List.mem_map.mp (List.mem_of_getElem? hi)
      exact ⟨l, rfl, Json.writable_array.mp hkw l hl⟩
    | null | bool | number | string | object => cases hk

/-- In a JSON document only a pattern breaks a checked pair off. -/
lemma pattern_of_breaksOff {src : Source} (hv : Document.readJson src = .ok v)
    (hx : Checked e v s p x t q) (hb : BreaksOff e x t q i) :
    ∃ source, t.pattern = some source ∧ Pattern.compile source = .error (.interrupted i) := by
  cases hb with
  | @pattern text source _ he ht hs hc => exact ⟨source, hs, hc⟩
  | @number k m he hm hw =>
    obtain ⟨j, hj, rfl⟩ := Document.readJson_ok hv
    obtain ⟨text, -, hparse⟩ := Source.readJson_ok_iff.mp hj
    obtain ⟨l, hl, hlw⟩ := writable_of_checked hx (Json.writable_of_parse hparse)
    rw [hm] at hl
    cases l with
    | number m' =>
      cases hl
      rw [Json.writable_number.mp hlw] at hw
      cases hw
    | null | bool | string | array | object => cases hl

/-! ### Failing softly -/

/-- **Failing softly**: a validation answers exactly if no checked pair breaks off, which in a JSON
document only a pattern does. The answer holds all violations of all checked pairs; a text under a
pattern with a fault has one finding for it, amid those of its other checks.

The stack of the walk is taken as unbounded. Where it is not, writing a deep literal of an `enum` or
compiling a nested pattern below a deep node can exhaust it; no limit here stands for that. -/
theorem validate_answers_iff :
    ((∃ fs, validate e v s path = .ok fs) ↔ Lasts e v s (Site.ofRoot path)) ∧
    (∀ src x t q i, Document.readJson src = .ok v → Checked e v s (Site.ofRoot path) x t q →
      BreaksOff e x t q i →
      ∃ source, t.pattern = some source ∧ Pattern.compile source = .error (.interrupted i)) ∧
    ∀ fs, validate e v s path = .ok fs →
      (∀ f, f ∈ fs ↔ Violated e v s (Site.ofRoot path) f) ∧
      ∀ x t q text source fault, Checked e v s (Site.ofRoot path) x t q → Entered e x t q →
        x.text? = some text → t.pattern = some source →
        Pattern.compile source = .error (.fault fault) →
        faultyTextFindings t q x text source fault <:+: fs := by
  refine ⟨exists_validate_iff, fun _ _ _ _ _ hv hx hb => pattern_of_breaksOff hv hx hb,
    fun fs h => ⟨fun f => mem_of_validate h, ?_⟩⟩
  intro x t q text source fault hx he ht hs hc
  exact faulty_infix_of_validate h hx he ht hs hc

lemma compile_hugeCount :
    Pattern.compile "a\x7b4294967295\x7d" = .error (.interrupted .repetitionTooLarge) := by
  have h : (match Pattern.compile "a\x7b4294967295\x7d" with
      | .error (.interrupted i) => decide (i = .repetitionTooLarge)
      | _ => false) = true := by
    decide +kernel
  split at h
  · next i hi => rw [hi, of_decide_eq_true h]
  · cases h

/-- A count that no repetition may have leaves a member of the wrong type without a finding. -/
theorem hugeCount_hides_violation :
    let v : Value := .object [("a", .string "x"), ("b", .number .number (.int 1))]
    let s : Schema :=
      { properties := [("a", { pattern := some "a\x7b4294967295\x7d" }),
          ("b", { type := some "string" })] }
    let e : Setup := ⟨.json, 32⟩
    Violated e v s (Site.ofRoot "$") (.invalidType "$.b" "string" "number" false) ∧
      ¬∃ fs, validate e v s "$" = .ok fs := by
  refine ⟨violated_second, fun h => ?_⟩
  refine exists_validate_iff.mp h _ _ _ checked_first _ (.pattern ?_ rfl rfl compile_hugeCount)
  exact .of_untyped (by simp) rfl rfl (by simp [Site.member, Site.ofRoot])

end Conform.Validator
