import Mathlib.Data.List.Nodup
import Conform.Proofs.Number.Order
import Conform.Proofs.Schema.Rearranged

/-!
What becomes of each keyword. A setting of the right shape stands for what the keyword's field then
holds, and there is no more than one such; any other setting leaves the field as it is without the
keyword and has the keyword listed as malformed. So at every node of a schema that is read each
keyword is either used or told of, once, and nothing else of the text has an effect.
-/

namespace Conform.Schema

variable {ms : List (String × Json)} {s : Schema} {j k : Json} {w : Keyword} {key : String}

inductive Field where
  | text (t : Option String)
  | schemas (ss : List (String × Schema))
  | names (ns : List String)
  | flag (b : Option Bool)
  | schema (s : Option Schema)
  | count (c : Option Nat)
  | number (n : Option Number)
  | literals (js : Option (List Json))

def field (s : Schema) : Keyword → Field
  | .type => .text s.type
  | .properties => .schemas s.properties
  | .required => .names s.required
  | .additionalProperties => .flag s.additionalProperties
  | .items => .schema s.items
  | .minItems => .count s.minItems
  | .maxItems => .count s.maxItems
  | .minLength => .count s.minLength
  | .maxLength => .count s.maxLength
  | .pattern => .text s.pattern
  | .minimum => .number s.minimum
  | .maximum => .number s.maximum
  | .exclusiveMinimum => .number s.exclusiveMinimum
  | .exclusiveMaximum => .number s.exclusiveMaximum
  | .multipleOf => .number s.multipleOf
  | .enum => .literals s.enum

def Keyword.default (w : Keyword) : Field := ({} : Schema).field w

inductive Keyword.Counts : Keyword → Prop where
  | minItems : Counts .minItems
  | maxItems : Counts .maxItems
  | minLength : Counts .minLength
  | maxLength : Counts .maxLength

inductive Keyword.Bounds : Keyword → Prop where
  | minimum : Bounds .minimum
  | maximum : Bounds .maximum
  | exclusiveMinimum : Bounds .exclusiveMinimum
  | exclusiveMaximum : Bounds .exclusiveMaximum

/-- A setting has the shape that the keyword asks for, and this is what the field then holds. A count
is a number, however it is written, that has the value of a natural number; a divisor is a number
that is not zero or below. -/
inductive Keyword.Means : Keyword → Json → Field → Prop where
  | type (t : String) : Means .type (.string t) (.text (some t))
  | properties (ps : List (String × Json)) :
      Means .properties (.object ps) (.schemas (ps.map fun m => (m.1, ofJson m.2)))
  | required (names : List String) : Means .required (.array (names.map .string)) (.names names)
  | additionalProperties (b : Bool) : Means .additionalProperties (.bool b) (.flag (some b))
  | items (ms : List (String × Json)) :
      Means .items (.object ms) (.schema (some (ofJson (.object ms))))
  | count {w : Keyword} (counts : w.Counts) {n : Number} {c : Nat}
      (value : n.value? = some ((c : ℚ) : WithTop ℚ)) : Means w (.number n) (.count (some c))
  | pattern (t : String) : Means .pattern (.string t) (.text (some t))
  | bound {w : Keyword} (bounds : w.Bounds) (n : Number) :
      Means w (.number n) (.number (some n))
  | multipleOf {n : Number} (positive : ∀ x, n.value? = some x → 0 < x) :
      Means .multipleOf (.number n) (.number (some n))
  | enum (js : List Json) : Means .enum (.array js) (.literals (some js))

/-! ### Shapes -/

lemma string?_eq_some {t : String} : string? j = some t ↔ j = .string t := by
  cases j <;> simp [string?]

lemma bool?_eq_some {b : Bool} : bool? j = some b ↔ j = .bool b := by
  cases j <;> simp [bool?]

lemma number?_eq_some {n : Number} : number? j = some n ↔ j = .number n := by
  cases j <;> simp [number?]

lemma list?_eq_some {js : List Json} : list? j = some js ↔ j = .array js := by
  cases j <;> simp [list?]

lemma isObject_eq_true : isObject j = true ↔ ∃ ms, j = .object ms := by
  cases j <;> simp [isObject]

lemma count?_eq_some {c : Nat} :
    count? j = some c ↔ ∃ n : Number, j = .number n ∧ n.value? = some ((c : ℚ) : WithTop ℚ) := by
  cases j with
  | number n =>
    rw [count?, Option.bind_eq_some_iff]
    constructor
    · rintro ⟨i, hi, hc⟩
      obtain ⟨hnonneg, rfl⟩ := Option.ite_none_right_eq_some.mp hc |>.imp_right Option.some.inj
      refine ⟨n, rfl, ?_⟩
      rw [Number.toInt?_eq_some.mp hi, ← Int.cast_natCast, Int.toNat_of_nonneg hnonneg]
    · rintro ⟨n', ⟨⟩, hc⟩
      exact ⟨c, Number.toInt?_eq_some.mpr (by rw [hc, Int.cast_natCast]), rfl⟩
  | null | bool | string | array | object => simp [count?]

lemma divisor?_eq_some {d : Number} :
    divisor? j = some d ↔ j = .number d ∧ ∀ x, d.value? = some x → 0 < x := by
  cases j with
  | number n =>
    have hle : ¬n.le (.int 0) = true ↔ ∀ x, n.value? = some x → 0 < x := by
      have hzero : (Number.int 0).value? = some 0 := by simp [Number.value?]
      rw [Number.le_eq_true, hzero]
      simp
    rw [divisor?, Option.ite_none_left_eq_some, hle, Json.number.injEq, Option.some.injEq]
    constructor
    · rintro ⟨h, rfl⟩
      exact ⟨rfl, h⟩
    · rintro ⟨rfl, h⟩
      exact ⟨h, rfl⟩
  | null | bool | string | array | object => simp [divisor?]

lemma strings?_eq_some {names : List String} :
    strings? j = some names ↔ j = .array (names.map .string) := by
  have hmapM (js : List Json) : js.mapM string? = some names ↔ js = names.map .string := by
    induction js generalizing names with
    | nil => cases names <;> simp
    | cons j js ih =>
      cases names with
      | nil => cases j <;> simp [string?, Option.bind_eq_some_iff]
      | cons name names => cases j <;> simp [string?, Option.bind_eq_some_iff, ih, and_comm]
  cases j with
  | array js => rw [strings?, hmapM, Json.array.injEq]
  | null | bool | number | string | object => simp [strings?]

def Keyword.read : Keyword → Json → Field
  | .type, j | .pattern, j => .text (string? j)
  | .properties, j => .schemas (ofMembers ((members? j).getD []))
  | .required, j => .names ((strings? j).getD [])
  | .additionalProperties, j => .flag (bool? j)
  | .items, j => .schema ((object? j).map ofJson)
  | .minItems, j | .maxItems, j | .minLength, j | .maxLength, j => .count (count? j)
  | .minimum, j | .maximum, j | .exclusiveMinimum, j | .exclusiveMaximum, j => .number (number? j)
  | .multipleOf, j => .number (divisor? j)
  | .enum, j => .literals (list? j)

lemma field_ofJson (ms : List (String × Json)) (w : Keyword) :
    (ofJson (.object ms)).field w = ((Members.get? ms w.name).map w.read).getD w.default := by
  rw [ofJson, propertiesIn_eq, itemsIn_eq]
  cases w <;> simp only [field, setting?] <;> cases Members.get? ms _ <;> rfl

namespace Keyword

/-- A setting of the right shape is read as what it stands for. -/
lemma Means.read {x : Field} (h : w.Means j x) : w.read j = x ∧ w.fits j = true := by
  cases h with
  | type | additionalProperties | items | pattern | enum => exact ⟨rfl, rfl⟩
  | properties ps => exact ⟨congrArg Field.schemas (ofMembers_eq ps), rfl⟩
  | required names =>
    have hnames := strings?_eq_some.mpr (Eq.refl (Json.array (names.map .string)))
    simp [Keyword.read, fits, hnames]
  | count counts value =>
    have hcount := count?_eq_some.mpr ⟨_, rfl, value⟩
    cases counts <;> simp [Keyword.read, fits, hcount]
  | bound bounds n => cases bounds <;> exact ⟨rfl, rfl⟩
  | multipleOf positive =>
    have hdivisor := divisor?_eq_some.mpr ⟨rfl, positive⟩
    simp [Keyword.read, fits, hdivisor]

lemma exists_means (h : w.fits j = true) : ∃ x, w.Means j x := by
  have hcount (hw : w.Counts) (h : (count? j).isSome = true) : ∃ x, w.Means j x := by
    obtain ⟨c, hc⟩ := Option.isSome_iff_exists.mp h
    obtain ⟨n, rfl, value⟩ := count?_eq_some.mp hc
    exact ⟨_, .count hw value⟩
  have hbound (hw : w.Bounds) (h : (number? j).isSome = true) : ∃ x, w.Means j x := by
    obtain ⟨n, hn⟩ := Option.isSome_iff_exists.mp h
    cases number?_eq_some.mp hn
    exact ⟨_, .bound hw n⟩
  cases w with
  | minItems => exact hcount .minItems h
  | maxItems => exact hcount .maxItems h
  | minLength => exact hcount .minLength h
  | maxLength => exact hcount .maxLength h
  | minimum => exact hbound .minimum h
  | maximum => exact hbound .maximum h
  | exclusiveMinimum => exact hbound .exclusiveMinimum h
  | exclusiveMaximum => exact hbound .exclusiveMaximum h
  | multipleOf =>
    obtain ⟨d, hd⟩ := Option.isSome_iff_exists.mp h
    obtain ⟨rfl, positive⟩ := divisor?_eq_some.mp hd
    exact ⟨_, .multipleOf positive⟩
  | required =>
    obtain ⟨names, hnames⟩ := Option.isSome_iff_exists.mp h
    cases strings?_eq_some.mp hnames
    exact ⟨_, .required names⟩
  | additionalProperties =>
    obtain ⟨b, hb⟩ := Option.isSome_iff_exists.mp h
    cases bool?_eq_some.mp hb
    exact ⟨_, .additionalProperties b⟩
  | enum =>
    obtain ⟨js, hjs⟩ := Option.isSome_iff_exists.mp h
    cases list?_eq_some.mp hjs
    exact ⟨_, .enum js⟩
  | type =>
    obtain ⟨t, ht⟩ := Option.isSome_iff_exists.mp h
    cases string?_eq_some.mp ht
    exact ⟨_, .type t⟩
  | pattern =>
    obtain ⟨t, ht⟩ := Option.isSome_iff_exists.mp h
    cases string?_eq_some.mp ht
    exact ⟨_, .pattern t⟩
  | properties =>
    obtain ⟨ps, rfl⟩ := isObject_eq_true.mp h
    exact ⟨_, .properties ps⟩
  | items =>
    obtain ⟨ms, rfl⟩ := isObject_eq_true.mp h
    exact ⟨_, .items ms⟩

/-- A setting of the wrong shape is read as if the keyword were absent. -/
lemma read_of_fits_eq_false (h : w.fits j = false) : w.read j = w.default := by
  have hnone {α : Type} {o : Option α} (ho : o.isSome = false) : o = none :=
    Option.not_isSome_iff_eq_none.mp (by rw [ho]; decide)
  cases w with
  | properties | items => cases j <;> first | rfl | cases h
  | required => exact congrArg (fun o : Option (List String) => Field.names (o.getD [])) (hnone h)
  | type | pattern => exact congrArg Field.text (hnone h)
  | additionalProperties => exact congrArg Field.flag (hnone h)
  | minItems | maxItems | minLength | maxLength => exact congrArg Field.count (hnone h)
  | minimum | maximum | exclusiveMinimum | exclusiveMaximum | multipleOf =>
    exact congrArg Field.number (hnone h)
  | enum => exact congrArg Field.literals (hnone h)

end Keyword

lemma Keyword.name_of_ofName? (h : ofName? key = some w) : w.name = key := by
  have hw := List.find?_some h
  exact beq_iff_eq.mp hw

lemma mem_malformedIn (hms : (Members.keys ms).Nodup) : key ∈ malformedIn ms ↔
    ∃ (w : Keyword) (j : Json), Keyword.ofName? key = some w ∧ Members.get? ms key = some j ∧
      w.fits j = false := by
  rw [malformedIn, List.mem_filterMap]
  constructor
  · rintro ⟨⟨key', j⟩, hmem, hkey⟩
    simp only at hkey
    split at hkey
    · next w hw =>
      split at hkey
      · cases hkey
      · next hfits =>
        cases hkey
        exact ⟨w, j, hw, Members.get?_of_mem hms hmem, Bool.not_eq_true _ ▸ hfits⟩
    · cases hkey
  · rintro ⟨w, j, hw, hj, hfits⟩
    exact ⟨(key, j), Members.mem_of_get? hj, by simp [hw, hfits]⟩

lemma name_mem_malformedIn (hms : (Members.keys ms).Nodup) : w.name ∈ malformedIn ms ↔
    ∃ j, Members.get? ms w.name = some j ∧ w.fits j = false := by
  rw [mem_malformedIn hms]
  simp [Keyword.ofName?_name]

/-- The members whose keys are keywords that are understood. -/
def understood (ms : List (String × Json)) : List (String × Json) :=
  ms.filter fun m => (Keyword.ofName? m.1).isSome

lemma get?_understood (ms : List (String × Json)) (w : Keyword) :
    Members.get? (understood ms) w.name = Members.get? ms w.name := by
  induction ms with
  | nil => rfl
  | cons m r ih =>
    obtain ⟨key, j⟩ := m
    rw [understood, List.filter_cons]
    by_cases hkey : key = w.name
    · subst hkey
      simp [Members.get?]
    · rw [Members.get?, if_neg hkey, ← ih]
      split
      · rw [Members.get?, if_neg hkey, understood]
      · rfl

lemma malformedIn_understood (ms : List (String × Json)) :
    malformedIn (understood ms) = malformedIn ms := by
  rw [malformedIn, malformedIn, understood, List.filterMap_filter]
  congr 1
  funext m
  obtain ⟨key, j⟩ := m
  cases hw : Keyword.ofName? key <;> simp [hw]

lemma ofJson_understood (ms : List (String × Json)) :
    ofJson (.object (understood ms)) = ofJson (.object ms) := by
  simp only [ofJson, propertiesIn_eq, itemsIn_eq, setting?, get?_understood,
    malformedIn_understood]

/-! ### The account of a text -/

/-- A schema accounts for the keywords of the object that it was read from. -/
structure AccountsFor (ms : List (String × Json)) (s : Schema) : Prop where
  /-- A keyword that is absent leaves its field at the default. -/
  absent : ∀ w : Keyword, Members.get? ms w.name = none →
    s.field w = w.default ∧ w.name ∉ s.malformed
  /-- A setting of the right shape is in its field, and the keyword is not listed. -/
  used : ∀ (w : Keyword) (j : Json) (x : Field), Members.get? ms w.name = some j → w.Means j x →
    s.field w = x ∧ w.name ∉ s.malformed
  /-- A keyword whose setting has the wrong shape is listed once, and its field is at the default. -/
  unused : ∀ (w : Keyword) (j : Json), Members.get? ms w.name = some j → (∀ x, ¬w.Means j x) →
    s.field w = w.default ∧ s.malformed.count w.name = 1
  /-- Only keywords are listed. -/
  keywords : ∀ key ∈ s.malformed, ∃ w : Keyword, w.name = key
  /-- They are listed in the order of the text. -/
  order : s.malformed.Sublist (Members.keys ms)
  /-- Nothing is wrong with the object as such. -/
  shape : s.shapeError = none
  /-- Members that are no keywords have no effect. -/
  others : ofJson (.object (understood ms)) = s

/-- Every object without repeated keys is accounted for. -/
lemma accountsFor_ofJson (hms : (Members.keys ms).Nodup) :
    AccountsFor ms (ofJson (.object ms)) where
  absent w hw := by
    rw [field_ofJson, hw]
    refine ⟨rfl, fun hmem => ?_⟩
    obtain ⟨j, hj, -⟩ := (name_mem_malformedIn hms).mp hmem
    cases hw.symm.trans hj
  used w j x hw hx := by
    rw [field_ofJson, hw]
    refine ⟨hx.read.1, fun hmem => ?_⟩
    obtain ⟨j', hj, hfits⟩ := (name_mem_malformedIn hms).mp hmem
    cases hw.symm.trans hj
    cases hfits.symm.trans hx.read.2
  unused w j hw hx := by
    have hfits : w.fits j = false :=
      Bool.not_eq_true _ ▸ fun hfits => not_exists.mpr hx (Keyword.exists_means hfits)
    rw [field_ofJson, hw]
    refine ⟨Keyword.read_of_fits_eq_false hfits, ?_⟩
    exact List.count_eq_one_of_mem ((malformedIn_sublist ms).nodup hms)
      ((name_mem_malformedIn hms).mpr ⟨j, hw, hfits⟩)
  keywords key hmem := by
    obtain ⟨w, -, hw, -⟩ := (mem_malformedIn hms).mp hmem
    exact ⟨w, Keyword.name_of_ofName? hw⟩
  order := malformedIn_sublist ms
  shape := rfl
  others := ofJson_understood ms

/-- What is in a field is what some setting stands for. -/
lemma AccountsFor.set (h : AccountsFor ms s) (hw : s.field w ≠ w.default) :
    ∃ j, Members.get? ms w.name = some j ∧ w.Means j (s.field w) := by
  cases hj : Members.get? ms w.name with
  | none => exact absurd (h.absent w hj).1 hw
  | some j =>
    by_cases hx : ∃ x, w.Means j x
    · obtain ⟨x, hx⟩ := hx
      exact ⟨j, rfl, (h.used w j x hj hx).1 ▸ hx⟩
    · exact absurd (h.unused w j hj (not_exists.mp hx)).1 hw

def fragmentAt? : Json → List Step → Option Json
  | j, [] => some j
  | j, a :: steps => (fragment? j a).bind fun k => fragmentAt? k steps

lemma follow?_ofJson (j : Json) (steps : List Step) :
    (ofJson j).follow? steps = (fragmentAt? j steps).map ofJson := by
  induction steps generalizing j with
  | nil => rfl
  | cons a steps ih =>
    rw [follow?, fragmentAt?, under?_ofJson]
    cases fragment? j a with
    | none => rfl
    | some k => exact ih k

lemma keysDistinct_of_fragmentAt? {steps : List Step} (hj : j.KeysDistinct)
    (hk : fragmentAt? j steps = some k) : k.KeysDistinct := by
  induction steps generalizing j with
  | nil =>
    cases hk
    exact hj
  | cons a steps ih =>
    obtain ⟨l, hl, hk⟩ := Option.bind_eq_some_iff.mp hk
    exact ih (keysDistinct_of_fragment? hj hl) hk

/-! ### The nodes of what is read -/

lemma fragmentAt?_append {steps : List Step} {a : Step} (hk : fragmentAt? j steps = some k) :
    fragmentAt? j (steps ++ [a]) = fragment? k a := by
  induction steps generalizing j with
  | nil =>
    cases hk
    exact Option.bind_fun_some _
  | cons b steps ih =>
    obtain ⟨l, hl, hk⟩ := Option.bind_eq_some_iff.mp hk
    rw [List.cons_append, fragmentAt?, hl, Option.bind_some, ih hk]

lemma node_of_follow? {t : Schema} {steps : List Step} (h : s.follow? steps = some t) :
    s.Node t := by
  have hnodes : s.Everywhere s.Node := fun _ => id
  suffices ∀ {u : Schema}, u.Everywhere s.Node → u.follow? steps = some t → s.Node t from
    this hnodes h
  clear h
  induction steps with
  | nil =>
    rintro u hu ⟨⟩
    exact hu.here
  | cons a steps ih =>
    intro u hu h
    obtain ⟨u', hu', h⟩ := Option.bind_eq_some_iff.mp h
    exact ih (hu.under hu') h

lemma nodup_properties (hk : k.KeysDistinct) : (Members.keys (ofJson k).properties).Nodup := by
  cases hk with
  | @object ms _ each =>
    rw [ofJson, propertiesIn_eq, ofMembers_eq, Members.keys, List.map_map]
    cases hps : setting? ms .properties members? with
    | none => exact List.nodup_nil
    | some ps =>
      obtain ⟨l, hl, hps⟩ := Option.bind_eq_some_iff.mp hps
      have hkeys := each _ (Members.mem_of_get? hl)
      cases l with
      | object qs =>
        cases hps
        exact (Json.keysDistinct_object.mp hkeys).1
      | null | bool | number | string | array => cases hps
  | null | bool | number | string | array => exact List.nodup_nil

/-- Every node of a schema that is read is read from a fragment of the text. -/
lemma Node.position {t : Schema} (h : (ofJson j).Node t) (hj : j.KeysDistinct) :
    ∃ steps k, fragmentAt? j steps = some k ∧ t = ofJson k := by
  have hstep {t u : Schema} {a : Step} (ht : ∃ steps k, fragmentAt? j steps = some k ∧ t = ofJson k)
      (hu : t.under? a = some u) : ∃ steps k, fragmentAt? j steps = some k ∧ u = ofJson k := by
    obtain ⟨steps, k, hk, rfl⟩ := ht
    rw [under?_ofJson] at hu
    obtain ⟨l, hl, rfl⟩ := Option.map_eq_some_iff.mp hu
    exact ⟨steps ++ [a], l, (fragmentAt?_append hk).trans hl, rfl⟩
  induction h with
  | self => exact ⟨[], j, rfl, rfl⟩
  | @property t u name _ mem ih =>
    refine hstep (a := .key name) ih ?_
    obtain ⟨steps, k, hk, rfl⟩ := ih
    exact Members.get?_of_mem (nodup_properties (keysDistinct_of_fragmentAt? hj hk)) mem
  | items _ set ih => exact hstep (a := .index 0) ih set

/-- **Reading a schema.** The nodes of a schema are read from the fragments of its text, position by
position. A fragment that is an object is accounted for keyword by keyword; any other becomes a
schema that says what was found instead of an object, and nothing else. -/
theorem reading_accounts (hj : j.KeysDistinct) (steps : List Step) :
    (ofJson j).follow? steps = (fragmentAt? j steps).map ofJson ∧
      ∀ k, fragmentAt? j steps = some k →
        (∀ ms, k = .object ms → AccountsFor ms (ofJson k)) ∧
        (isObject k = false → ofJson k =
          { shapeError := some ("Schema fragment must be an object, found " ++ sort k) }) := by
  refine ⟨follow?_ofJson j steps, fun k hk => ⟨?_, fun hshape => ?_⟩⟩
  · rintro ms rfl
    exact accountsFor_ofJson (Json.keysDistinct_object.mp (keysDistinct_of_fragmentAt? hj hk)).1
  · cases k with
    | object ms => cases hshape
    | null | bool | number | string | array => rfl

/-- Two usable keywords, two that are malformed and one that is unknown, over a property whose only
keyword is malformed and one that is no object. -/
theorem reading_accounts_mixed :
    let two : Binary64 := .finite false 0x10000000000000 (-51) (by decide)
    let a : List (String × Json) := [("minItems", .number (.int (-1)))]
    let ms : List (String × Json) :=
      [("minLength", .bool true), ("maxLength", .number (.double two)), ("$comment", .null),
        ("multipleOf", .number (.int 0)),
        ("properties", .object [("a", .object a), ("b", .array [])])]
    let j : Json := .object ms
    j.KeysDistinct ∧ AccountsFor ms (ofJson j) ∧
      (ofJson j).maxLength = some 2 ∧ (ofJson j).malformed = ["minLength", "multipleOf"] ∧
      fragmentAt? j [.key "a"] = some (.object a) ∧ AccountsFor a (ofJson (.object a)) ∧
      (ofJson j).follow? [.key "b"] =
        some { shapeError := some "Schema fragment must be an object, found array" } := by
  intro two a ms j
  have hj : j.KeysDistinct := by simp [j, ms, a, Members.keys]
  have ha : fragmentAt? j [.key "a"] = some (.object a) := rfl
  have hb : fragmentAt? j [.key "b"] = some (.array []) := rfl
  obtain ⟨hfollow, hread⟩ := reading_accounts hj [.key "b"]
  refine ⟨hj, ((reading_accounts hj []).2 j rfl).1 ms rfl, by decide +kernel, by decide +kernel, ha,
    ((reading_accounts hj [.key "a"]).2 _ ha).1 a rfl, ?_⟩
  rw [hfollow, hb, Option.map_some, (hread _ hb).2 rfl]
  rfl

end Conform.Schema
