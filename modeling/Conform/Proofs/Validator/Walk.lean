import Conform.Proofs.Validator.Entry

/-!
What the walk says. Its notices on a pair are those of the pair itself with those of the pairs
below it in between; so the notices on a checked pair stand together in the notices of the whole,
and a notice of the whole is one of some checked pair.
-/

namespace Conform.Validator

variable {d : Dialect} {e : Setup} {v x : Value} {s t u : Schema} {p q : Site} {f : Finding}
  {i : Interruption} {n : Notice}

lemma mem_enumFindings {path : String} :
    f ∈ enumFindings s path v ↔ ∃ js, s.enum = some js ∧ (∀ j ∈ js, v.equals j = false) ∧
      f = .invalidValue path ("Value must be one of: " ++ ", ".intercalate (js.map Json.text))
        ("one of [" ++ ", ".intercalate (js.map Json.text) ++ "]")
        (v.display Value.displayLimit) := by
  simp [enumFindings]

lemma mem_missingFindings {path : String} {ms : List (String × Value)} :
    f ∈ missingFindings d s path ms ↔
      ∃ name ∈ s.required, name ∉ Members.keys ms ∧ f = missingFinding d s path name := by
  simp only [missingFindings, List.mem_map, List.mem_filter, Option.isNone_iff_eq_none,
    Members.get?_eq_none_iff]
  constructor
  · rintro ⟨name, ⟨hr, ha⟩, rfl⟩
    exact ⟨name, hr, ha, rfl⟩
  · rintro ⟨name, hr, ha, rfl⟩
    exact ⟨name, ⟨hr, ha⟩, rfl⟩

lemma missingFinding_of_missesTable {path name : String} (h : MissesTable d s name) :
    missingFinding d s path name = .tableNotFound (Path.child path name) name := by
  obtain ⟨hd, t, ht, htable⟩ := h
  simp [missingFinding, ht, hd, htable]

lemma missingFinding_of_not_missesTable {path name : String} (h : ¬MissesTable d s name) :
    missingFinding d s path name = .missingProperty (Path.child path name) name := by
  unfold missingFinding
  split
  · next t ht =>
    split
    · next hb =>
      rw [Bool.and_eq_true] at hb
      exact absurd ⟨hb.1, t, ht, hb.2⟩ h
    · rfl
  · rfl

lemma mem_undeclaredFindings {path key : String} :
    f ∈ undeclaredFindings s path key ↔ s.additionalProperties = some false ∧
      f = .other (Path.child path key) ("Additional property '" ++ key ++ "' not allowed") := by
  unfold undeclaredFindings
  split <;> simp_all

lemma contentViolation_object {path : String} {ms : List (String × Value)} :
    ContentViolation d s path (.object ms) f ↔
      f ∈ missingFindings d s path ms ∨
      (∃ key ∈ Members.keys ms, s.property? key = none ∧ f ∈ undeclaredFindings s path key) ∨
      f ∈ enumFindings s path (.object ms) := by
  rw [mem_missingFindings, mem_enumFindings]
  simp only [mem_undeclaredFindings]
  constructor
  · intro h
    cases h with
    | missingTable hr ha h => exact Or.inl ⟨_, hr, ha, (missingFinding_of_missesTable h).symm⟩
    | missingProperty hr ha h =>
      exact Or.inl ⟨_, hr, ha, (missingFinding_of_not_missesTable h).symm⟩
    | undeclared hk h hc => exact Or.inr (Or.inl ⟨_, hk, h, hc, rfl⟩)
    | notListed hs h => exact Or.inr (Or.inr ⟨_, hs, h, rfl⟩)
    | tooShort ht | tooLong ht | faultyPattern ht | noMatch ht => cases ht
  · rintro (⟨name, hr, ha, rfl⟩ | ⟨key, hk, h, hc, rfl⟩ | ⟨js, hs, h, rfl⟩)
    · by_cases hm : MissesTable d s name
      · rw [missingFinding_of_missesTable hm]; exact .missingTable hr ha hm
      · rw [missingFinding_of_not_missesTable hm]; exact .missingProperty hr ha hm
    · exact .undeclared hk h hc
    · exact .notListed hs h

lemma contentViolation_array {path : String} {vs : List Value} :
    ContentViolation d s path (.array vs) f ↔
      f ∈ sizeFindings s path vs.length ∨ f ∈ enumFindings s path (.array vs) := by
  simp only [sizeFindings, List.mem_append, mem_whenSet, decide_eq_true_eq, mem_enumFindings]
  constructor
  · intro h
    cases h with
    | tooFewItems hs h => exact Or.inl (Or.inl ⟨_, hs, h, rfl⟩)
    | tooManyItems hs h => exact Or.inl (Or.inr ⟨_, hs, h, rfl⟩)
    | notListed hs h => exact Or.inr ⟨_, hs, h, rfl⟩
    | tooShort ht | tooLong ht | faultyPattern ht | noMatch ht => cases ht
  · rintro ((⟨n, hs, h, rfl⟩ | ⟨n, hs, h, rfl⟩) | ⟨js, hs, h, rfl⟩)
    · exact .tooFewItems hs h
    · exact .tooManyItems hs h
    · exact .notListed hs h

lemma contentViolation_number {path : String} {k : NumberKind} {m : Number} :
    ContentViolation d s path (.number k m) f ↔
      f ∈ numberFindings s path m ∨ f ∈ enumFindings s path (.number k m) := by
  simp only [numberFindings, List.mem_append, mem_whenSet, mem_enumFindings]
  constructor
  · intro h
    cases h with
    | belowMinimum hs h => exact Or.inl (Or.inl (Or.inl (Or.inl (Or.inl ⟨_, hs, h, rfl⟩))))
    | aboveMaximum hs h => exact Or.inl (Or.inl (Or.inl (Or.inl (Or.inr ⟨_, hs, h, rfl⟩))))
    | notAbove hs h => exact Or.inl (Or.inl (Or.inl (Or.inr ⟨_, hs, h, rfl⟩)))
    | notBelow hs h => exact Or.inl (Or.inl (Or.inr ⟨_, hs, h, rfl⟩))
    | noMultiple hs h => exact Or.inl (Or.inr ⟨_, hs, h, rfl⟩)
    | notListed hs h => exact Or.inr ⟨_, hs, h, rfl⟩
    | tooShort ht | tooLong ht | faultyPattern ht | noMatch ht => cases ht
  · rintro (((((⟨b, hs, h, rfl⟩ | ⟨b, hs, h, rfl⟩) | ⟨b, hs, h, rfl⟩) | ⟨b, hs, h, rfl⟩) |
      ⟨b, hs, h, rfl⟩) | ⟨js, hs, h, rfl⟩)
    · exact .belowMinimum hs h
    · exact .aboveMaximum hs h
    · exact .notAbove hs h
    · exact .notBelow hs h
    · exact .noMultiple hs h
    · exact .notListed hs h

lemma ok_mem_patternNotices {source path text shown : String} :
    .ok f ∈ patternNotices source path text shown ↔
      (∃ r, Pattern.compile source = .ok r ∧ r.occursIn text = false ∧
        f = .invalidFormat path source shown) ∨
      ∃ g, Pattern.compile source = .error (.fault g) ∧
        f = .other path ("Invalid regex pattern in schema: " ++ g.message source.toList) := by
  unfold patternNotices
  split <;> simp_all

lemma error_mem_patternNotices {source path text shown : String} :
    .error i ∈ patternNotices source path text shown ↔
      Pattern.compile source = .error (.interrupted i) := by
  unfold patternNotices
  split
  · split <;> simp_all
  · simp_all
  · next j h => simp [h, eq_comm]

lemma error_mem_textNotices {path text shown : String} :
    .error i ∈ textNotices s path text shown ↔
      ∃ source, s.pattern = some source ∧ Pattern.compile source = .error (.interrupted i) := by
  simp only [textNotices, List.mem_append, Notice.error_notMem_ofFindings, false_or]
  split <;> simp_all [error_mem_patternNotices]

lemma contentViolation_text {path text : String} (ht : v.text? = some text) :
    ContentViolation d s path v f ↔
      .ok f ∈ textNotices s path text (v.display Value.displayLimit) ∨
        f ∈ enumFindings s path v := by
  simp only [textNotices, lengthFindings, List.mem_append, Notice.ok_mem_ofFindings, mem_whenSet,
    decide_eq_true_eq, mem_enumFindings]
  constructor
  · intro h
    cases h with
    | missingTable | missingProperty | undeclared | tooFewItems | tooManyItems | belowMinimum
    | aboveMaximum | notAbove | notBelow | noMultiple => cases ht
    | tooShort hx hs h => cases ht.symm.trans hx; exact Or.inl (Or.inl (Or.inl ⟨_, hs, h, rfl⟩))
    | tooLong hx hs h => cases ht.symm.trans hx; exact Or.inl (Or.inl (Or.inr ⟨_, hs, h, rfl⟩))
    | faultyPattern hx hs h =>
      rw [hs]
      exact Or.inl (Or.inr (ok_mem_patternNotices.mpr (Or.inr ⟨_, h, rfl⟩)))
    | noMatch hx hs hc h =>
      cases ht.symm.trans hx
      rw [hs]
      exact Or.inl (Or.inr (ok_mem_patternNotices.mpr (Or.inl ⟨_, hc, h, rfl⟩)))
    | notListed hs h => exact Or.inr ⟨_, hs, h, rfl⟩
  · rintro (((⟨n, hs, h, rfl⟩ | ⟨n, hs, h, rfl⟩) | h) | ⟨js, hs, h, rfl⟩)
    · exact .tooShort ht hs h
    · exact .tooLong ht hs h
    · split at h
      · next source hs =>
        rcases ok_mem_patternNotices.mp h with ⟨r, hc, ho, rfl⟩ | ⟨g, hg, rfl⟩
        · exact .noMatch ht hs hc ho
        · exact .faultyPattern ht hs hg
      · cases h
    · exact .notListed hs h

lemma contentViolation_boolean {path : String} {b : Bool} :
    ContentViolation d s path (.boolean b) f ↔ f ∈ enumFindings s path (.boolean b) := by
  rw [mem_enumFindings]
  constructor
  · intro h
    cases h with
    | notListed hs h => exact ⟨_, hs, h, rfl⟩
    | tooShort ht | tooLong ht | faultyPattern ht | noMatch ht => cases ht
  · rintro ⟨js, hs, h, rfl⟩
    exact .notListed hs h

lemma ok_mem_numberNotices {path : String} {m : Number} :
    .ok f ∈ numberNotices s path m ↔ m.isWritable = true ∧ f ∈ numberFindings s path m := by
  unfold numberNotices
  split <;> simp_all

lemma error_mem_numberNotices {path : String} {m : Number} :
    .error i ∈ numberNotices s path m ↔ m.isWritable = false ∧ i = .numberTooLong := by
  unfold numberNotices
  split <;> simp_all

/-! ### A pair and the pairs below it -/

lemma ok_mem_around {inside : Unit → List Notice} :
    .ok f ∈ around e v s p inside ↔ EntryViolation e v s p f ∨
      (Entered e v s p ∧ (.ok f ∈ inside () ∨ f ∈ enumFindings s p.path v)) := by
  simp only [around, List.mem_append, Notice.ok_mem_ofFindings, mem_entry_findings]
  split
  · next h => simp [enters_iff.mp h]
  · next h =>
    have hn : ¬Entered e v s p := fun he => h (enters_iff.mpr he)
    simp [hn]

lemma error_mem_around {inside : Unit → List Notice} :
    .error i ∈ around e v s p inside ↔ Entered e v s p ∧ .error i ∈ inside () := by
  simp only [around, List.mem_append, Notice.error_notMem_ofFindings, false_or]
  split
  · next h => simp [enters_iff.mp h]
  · next h =>
    have hn : ¬Entered e v s p := fun he => h (enters_iff.mpr he)
    simp [hn]

lemma mem_walkMembers {ms : List (String × Value)} :
    n ∈ walkMembers e ms s p ↔ ∃ key x, (key, x) ∈ ms ∧
      ((∃ u, s.property? key = some u ∧ n ∈ walk e x u (p.member key)) ∨
        (s.property? key = none ∧ n ∈ Notice.ofFindings (undeclaredFindings s p.path key))) := by
  induction ms with
  | nil => simp [walkMembers]
  | cons m r ih =>
    obtain ⟨key, x⟩ := m
    simp only [walkMembers, List.mem_append, ih, List.mem_cons, Prod.mk.injEq]
    constructor
    · rintro (h | ⟨k, y, hm, h⟩)
      · refine ⟨key, x, Or.inl ⟨rfl, rfl⟩, ?_⟩
        split at h
        · next u hu => exact Or.inl ⟨u, hu, h⟩
        · next hu => exact Or.inr ⟨hu, h⟩
      · exact ⟨k, y, Or.inr hm, h⟩
    · rintro ⟨k, y, ⟨rfl, rfl⟩ | hm, h⟩
      · left
        rcases h with ⟨u, hu, h⟩ | ⟨hu, h⟩ <;> rw [hu] <;> exact h
      · exact Or.inr ⟨k, y, hm, h⟩

lemma mem_walkItems {vs : List Value} {k : Nat} :
    n ∈ walkItems e vs u p k ↔ ∃ j x, vs[j]? = some x ∧ n ∈ walk e x u (p.item (k + j)) := by
  induction vs generalizing k with
  | nil => simp [walkItems]
  | cons y r ih =>
    simp only [walkItems, List.mem_append, ih]
    constructor
    · rintro (h | ⟨j, x, hx, h⟩)
      · exact ⟨0, y, rfl, h⟩
      · exact ⟨j + 1, x, by simpa using hx, by rwa [show k + (j + 1) = k + 1 + j by omega]⟩
    · rintro ⟨j, x, hx, h⟩
      cases j with
      | zero => cases hx; exact Or.inl h
      | succ j =>
        exact Or.inr ⟨j, x, by simpa using hx, by rwa [show k + 1 + j = k + (j + 1) by omega]⟩

end Conform.Validator
