import Conform.Proofs.Document
import Conform.Proofs.Schema.Keywords
import Conform.Proofs.Validator.Cut

/-!
What can be relied on at every node of a schema that is read from a text. A count is the value of the
number that the text has there. A divisor is the number that the text has there and lies above zero,
or it is not-a-number, which is not turned away; any other setting is told of. So the divisors of the
numbers that are checked are above zero exactly if the text has no not-a-number in that place.
-/

namespace Conform

def Number.Positive (n : Number) : Prop := ∃ x, n.value? = some x ∧ 0 < x

namespace Schema

open Fallible Validator

variable {ms : List (String × Json)} {j k : Json} {s t : Schema} {w : Keyword} {d : Number}

def settingOf? : Json → Keyword → Option Json
  | .object ms, w => Members.get? ms w.name
  | _, _ => none

/-- Where the counts and the divisor of a schema come from, if it is read from a fragment. -/
structure Vetted (k : Json) (t : Schema) : Prop where
  count : ∀ w c, w.Counts → t.field w = .count (some c) →
    ∃ n : Number, settingOf? k w = some (.number n) ∧ n.value? = some ((c : ℚ) : WithTop ℚ)
  divisor : ∀ d, t.multipleOf = some d →
    settingOf? k .multipleOf = some (.number d) ∧ (d = .double .nan ∨ d.Positive)
  other : ∀ l, settingOf? k .multipleOf = some l → t.multipleOf = none →
    Keyword.multipleOf.name ∈ t.malformed

lemma Keyword.Means.setting_of_count {c : Nat} (h : w.Means j (.count (some c))) :
    ∃ n : Number, j = .number n ∧ n.value? = some ((c : ℚ) : WithTop ℚ) := by
  cases h with
  | count _ value => exact ⟨_, rfl, value⟩

lemma Keyword.Means.setting_of_divisor (h : Keyword.multipleOf.Means j (.number (some d))) :
    j = .number d ∧ (d = .double .nan ∨ d.Positive) := by
  cases h with
  | bound bounds => cases bounds
  | multipleOf positive =>
    refine ⟨rfl, ?_⟩
    cases hd : d.value? with
    | none => exact Or.inl (Number.value?_eq_none.mp hd)
    | some x => exact Or.inr ⟨x, hd, positive x hd⟩

lemma AccountsFor.vetted (h : AccountsFor ms t) : Vetted (.object ms) t where
  count w c hw hc := by
    obtain ⟨j, hj, hmeans⟩ := h.set (w := w) (by rw [hc]; cases hw <;> intro h <;> cases h)
    rw [hc] at hmeans
    obtain ⟨n, rfl, value⟩ := hmeans.setting_of_count
    exact ⟨n, hj, value⟩
  divisor d hd := by
    have hfield : t.field .multipleOf = .number (some d) := congrArg Field.number hd
    obtain ⟨j, hj, hmeans⟩ := h.set (w := .multipleOf) (by rw [hfield]; intro h; cases h)
    rw [hfield] at hmeans
    obtain ⟨rfl, hpos⟩ := hmeans.setting_of_divisor
    exact ⟨hj, hpos⟩
  other l hl ht := by
    by_cases hx : ∃ x, Keyword.multipleOf.Means l x
    · obtain ⟨x, hx⟩ := hx
      have hfield := (h.used _ l x hl hx).1
      have hnone : t.field .multipleOf = .number none := congrArg Field.number ht
      cases hx with
      | count counts => cases counts
      | bound bounds => cases bounds
      | multipleOf => cases hnone.symm.trans hfield
    · have hcount := (h.unused _ l hl (not_exists.mp hx)).2
      exact List.count_pos_iff.mp (hcount ▸ Nat.one_pos)

lemma vetted_ofJson (hk : k.KeysDistinct) : Vetted k (ofJson k) := by
  cases hk with
  | object nodup _ => exact (accountsFor_ofJson nodup).vetted
  | null | bool | number | string | array =>
    exact
      { count := fun w c hw h => by cases hw <;> cases h
        divisor := fun d h => by cases h
        other := fun l h => by cases h }

lemma multipleOf_of_nan (h : settingOf? k .multipleOf = some (.number (.double .nan))) :
    (ofJson k).multipleOf = some (.double .nan) := by
  cases k with
  | object ms =>
    have hms : Members.get? ms Keyword.multipleOf.name = some (.number (.double .nan)) := h
    exact congrArg (Option.bind · divisor?) hms
  | null | bool | number | string | array => cases h

lemma read_ok {src : Source} (h : Schema.read src = .ok s) :
    ∃ j, src.readJson .schema = .ok j ∧ s = ofJson j := by
  obtain ⟨j, hj, h⟩ := bind_eq_ok_iff.mp h
  refine ⟨j, hj, ?_⟩
  cases j with
  | object ms =>
    cases h
    rfl
  | null | bool | number | string | array => cases h

/-- **Schemas that are read**: each node has its counts and its divisor from the fragment at its
position, a value is checked against a divisor only if that is positive or not-a-number, and all the
divisors are positive exactly if no fragment sets not-a-number as one. -/
theorem read_vetted {src : Source} (h : Schema.read src = .ok s) :
    ∃ j, src.readJson .schema = .ok j ∧
      (∀ t, s.Node t → ∃ steps k, fragmentAt? j steps = some k ∧ t = ofJson k ∧ Vetted k t) ∧
      (∀ e v p x t q d, Checked e v s p x t q → t.multipleOf = some d →
        d = .double .nan ∨ d.Positive) ∧
      ((∀ t d, s.Node t → t.multipleOf = some d → d.Positive) ↔
        ∀ steps k, fragmentAt? j steps = some k →
          settingOf? k .multipleOf ≠ some (.number (.double .nan))) := by
  obtain ⟨j, hj, rfl⟩ := read_ok h
  obtain ⟨text, -, hparse⟩ := Source.readJson_ok_iff.mp hj
  have hkeys : j.KeysDistinct := Json.keysDistinct_of_parse hparse
  have hvetted (t : Schema) (ht : (ofJson j).Node t) :
      ∃ steps k, fragmentAt? j steps = some k ∧ t = ofJson k ∧ Vetted k t := by
    obtain ⟨steps, k, hk, rfl⟩ := ht.position hkeys
    exact ⟨steps, k, hk, rfl, vetted_ofJson (keysDistinct_of_fragmentAt? hkeys hk)⟩
  refine ⟨j, hj, hvetted, fun e v p x t q d hc hd => ?_, fun hpos steps k hk hnan => ?_,
    fun hnan t d ht hd => ?_⟩
  · obtain ⟨steps, k, -, -, hv⟩ := hvetted t hc.node
    exact (hv.divisor d hd).2
  · have hnode : (ofJson j).Node (ofJson k) :=
      node_of_follow? (by rw [follow?_ofJson, hk, Option.map_some])
    obtain ⟨x, hx, -⟩ := hpos _ (.double .nan) hnode (multipleOf_of_nan hnan)
    cases hx
  · obtain ⟨steps, k, hk, -, hv⟩ := hvetted t ht
    obtain ⟨hsetting, rfl | hpos⟩ := hv.divisor d hd
    · exact absurd hsetting (hnan steps k hk)
    · exact hpos

/-- A count with a fraction of zeros and a divisor, and a divisor of zero one step below. -/
theorem read_vetted_three :
    let src : Source :=
      .text "\x7b\"minItems\": 2.0, \"multipleOf\": 3, \"items\": \x7b\"multipleOf\": 0\x7d\x7d"
    let two : Binary64 := .finite false 0x10000000000000 (-51) (by decide)
    let below : Json := .object [("multipleOf", .number (.int 0))]
    let j : Json := .object
      [("minItems", .number (.double two)), ("multipleOf", .number (.int 3)), ("items", below)]
    Schema.read src = .ok (ofJson j) ∧ (ofJson j).Node (ofJson below) ∧
      (ofJson j).minItems = some 2 ∧ (ofJson j).multipleOf = some (.int 3) ∧
      (Number.int 3).Positive ∧ (ofJson below).malformed = ["multipleOf"] ∧
      ∃ steps k, fragmentAt? j steps = some k ∧ ofJson below = ofJson k ∧
        Vetted k (ofJson below) := by
  intro src two below j
  have hzero (r : List Char) (p : Nat) : Json.readScalar ⟨'0' :: '}' :: r, p⟩ =
      .ok (.number (.int 0), ⟨'}' :: r, p + 1⟩) := rfl
  have hthree (r : List Char) (p : Nat) : Json.readScalar ⟨'3' :: ',' :: r, p⟩ =
      .ok (.number (.int 3), ⟨',' :: r, p + 1⟩) := rfl
  have hnumeral : Binary64.ofNumeral false ['2'] ['0'] 0 = two := by decide +kernel
  have htwo (r : List Char) (p : Nat) : Json.readScalar ⟨'2' :: '.' :: '0' :: ',' :: r, p⟩ =
      .ok (.number (.double two), ⟨',' :: r, p + 3⟩) := by
    rw [← hnumeral]
    rfl
  have hparse : Json.parse
      "\x7b\"minItems\": 2.0, \"multipleOf\": 3, \"items\": \x7b\"multipleOf\": 0\x7d\x7d".toList =
        .ok j := by
    simp [Json.parse, Json.readValue, Json.readPairs, Json.readString, Json.stringFrom,
      Json.Cursor.skip, Json.Cursor.next, Json.Cursor.move, Json.isBlank, Json.nestingLimit, hzero,
      hthree, htwo, Members.ofPairs, Members.put, bind, Except.bind, pure, Except.pure, j, below]
  have hjson : src.readJson .schema = .ok j := Source.readJson_ok_iff.mpr ⟨_, rfl, hparse⟩
  have hread : Schema.read src = .ok (ofJson j) := by rw [Schema.read, hjson]; rfl
  have hbelow : (ofJson j).Node (ofJson below) := .items .self rfl
  have hdivisor : (ofJson j).multipleOf = some (.int 3) := rfl
  obtain ⟨j', hj', hvetted, hchecked, -⟩ := read_vetted hread
  cases hjson.symm.trans hj'
  have hpos := hchecked ⟨.json, 0⟩ .null (Site.ofRoot "$") .null _ _ (.int 3) .root hdivisor
  exact ⟨hread, hbelow, by decide +kernel, hdivisor, hpos.resolve_left (by intro h; cases h), rfl,
    hvetted _ hbelow⟩

/-- Not-a-number is read as a divisor, though it does not lie above zero, and is not told of. -/
theorem nan_divisor :
    ∃ s, Schema.read (.text "\x7b\"multipleOf\": NaN\x7d") = .ok s ∧
      s.multipleOf = some (.double .nan) ∧ ¬(Number.double .nan).Positive ∧ s.malformed = [] := by
  have hnan (r : List Char) (p : Nat) : Json.readScalar ⟨'N' :: 'a' :: 'N' :: r, p⟩ =
      .ok (.number (.double .nan), ⟨r, p + 3⟩) := rfl
  have hparse : Json.parse "\x7b\"multipleOf\": NaN\x7d".toList =
      .ok (.object [("multipleOf", .number (.double .nan))]) := by
    simp [Json.parse, Json.readValue, Json.readPairs, Json.readString, Json.stringFrom,
      Json.Cursor.skip, Json.Cursor.next, Json.Cursor.move, Json.isBlank, Json.nestingLimit, hnan,
      Members.ofPairs, Members.put, bind, Except.bind, pure, Except.pure]
  have hjson := Source.readJson_ok_iff.mpr
    ⟨_, show (Source.text "\x7b\"multipleOf\": NaN\x7d").decode .schema = .ok _ from rfl, hparse⟩
  refine ⟨_, by rw [Schema.read, hjson]; rfl, rfl, ?_, rfl⟩
  rintro ⟨x, hx, -⟩
  cases hx

end Schema

end Conform
