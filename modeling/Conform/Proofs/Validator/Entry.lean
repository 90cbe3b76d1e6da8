import Mathlib.Tactic.ByContra
import Conform.Proofs.Validator.Violation

/-!
Before a pair is entered. What is found then are the violations of its entry, and it is entered
exactly if there is a value within the limit on depth, the schema is one, and the value has its type
and the form of the type. Malformed keywords are told of and keep nothing out.
-/

namespace Conform.Validator

variable {d : Dialect} {e : Setup} {v x : Value} {s t u : Schema} {p q : Site} {f : Finding}
  {i : Interruption} {n : Notice}

lemma accepts_of_text? {k : TemporalKind} {text : String} (h : v.text? = some text) :
    (TypeRule.temporal k).accepts d v = true := by
  have hk : v.kind.isText = true := by rw [← Value.text?_isSome, h]; rfl
  simpa [TypeRule.accepts] using hk

lemma mem_formFindings {r : TypeRule} {path : String} :
    f ∈ formFindings r path v ↔ ∃ k text, r = .temporal k ∧ v.text? = some text ∧
      k.holds text = false ∧ f = .invalidDateTime path k.form text := by
  unfold formFindings
  split
  · next k text hv => by_cases h : k.holds text = true <;> simp [h, hv]
  · next hno =>
    simp only [List.not_mem_nil, false_iff, not_exists, not_and]
    intro k text hr hv
    exact absurd hv (hno k text hr)

lemma formFindings_eq_nil_iff {r : TypeRule} {path : String} :
    formFindings r path v = [] ↔ HasForm r v := by
  rw [List.eq_nil_iff_forall_not_mem]
  simp only [mem_formFindings, HasForm]
  constructor
  · intro h k text hr hv
    by_contra hk
    exact h _ ⟨k, text, hr, hv, by simpa using hk, rfl⟩
  · rintro h f ⟨k, text, hr, hv, hk, -⟩
    rw [h k text hr hv] at hk
    cases hk

lemma mem_typeFindings {type : String} :
    f ∈ typeFindings d type p v ↔
      (d.rule? type = none ∧ f = .other p.path ("Unrecognized schema type '" ++ type ++ "'")) ∨
      (∃ r, d.rule? type = some r ∧ r.accepts d v = false ∧
        f = .invalidType p.path type (d.kindName v.kind) p.inArray) ∨
      ∃ k text, d.rule? type = some (.temporal k) ∧ v.text? = some text ∧
        k.holds text = false ∧ f = .invalidDateTime p.path k.form text := by
  unfold typeFindings
  cases hr : d.rule? type with
  | none => simp
  | some r =>
    by_cases ha : r.accepts d v = true
    · simp [ha, mem_formFindings]
    · simp only [ha, Bool.false_eq_true, if_false, List.mem_singleton, reduceCtorEq, false_and,
        Option.some.injEq, false_or]
      constructor
      · rintro rfl
        exact Or.inl ⟨r, rfl, by simpa using ha, rfl⟩
      · rintro (⟨r', rfl, -, rfl⟩ | ⟨k, text, rfl, hv, -⟩)
        · rfl
        · exact absurd (accepts_of_text? hv) ha

lemma typeFindings_eq_nil_iff {type : String} :
    typeFindings d type p v = [] ↔
      ∃ r, d.rule? type = some r ∧ r.accepts d v = true ∧ HasForm r v := by
  unfold typeFindings
  cases hr : d.rule? type with
  | none => simp
  | some r => by_cases ha : r.accepts d v = true <;> simp [ha, formFindings_eq_nil_iff]

lemma mem_malformedFindings {path : String} :
    f ∈ malformedFindings s path ↔
      ∃ k ∈ s.malformed, f = .other path ("Malformed schema keyword '" ++ k ++ "'") := by
  simp [malformedFindings, eq_comm]

/-- The checks before a pair is entered, when nothing keeps it from its type. -/
lemma entry_of_admitted (h : Admitted e v s p) :
    entry e v s p =
      match s.type with
      | none => ⟨malformedFindings s p.path, true⟩
      | some type =>
        ⟨malformedFindings s p.path ++ typeFindings e.dialect type p v,
          (typeFindings e.dialect type p v).isEmpty⟩ := by
  have h1 : v.kind ≠ .null := fun hk => h.present (Value.kind_eq_null_iff.mp hk)
  have h2 : ¬e.maxDepth < (p.depth : Int) := by have := h.inReach; omega
  rw [entry, if_neg h1, h.isSchema]
  exact if_neg h2

lemma enters_iff : (entry e v s p).enters = true ↔ Entered e v s p := by
  constructor
  · intro h
    have hadm : Admitted e v s p := by
      unfold entry at h
      split at h
      · cases h
      · next hv =>
        split at h
        · cases h
        · next hs =>
          split at h
          · cases h
          · next hd => exact ⟨fun hn => hv (by rw [hn]; rfl), hs, by omega⟩
    refine ⟨hadm, fun type ht => ?_⟩
    rw [entry_of_admitted hadm, ht] at h
    exact typeFindings_eq_nil_iff.mp (List.isEmpty_iff.mp h)
  · intro h
    rw [entry_of_admitted h.toAdmitted]
    split
    · rfl
    · next type ht => exact List.isEmpty_iff.mpr (typeFindings_eq_nil_iff.mpr (h.hasType type ht))

lemma entry_findings_of_entered (h : Entered e v s p) :
    (entry e v s p).findings = malformedFindings s p.path := by
  rw [entry_of_admitted h.toAdmitted]
  split
  · rfl
  · next type ht =>
    rw [typeFindings_eq_nil_iff.mpr (h.hasType type ht)]
    exact List.append_nil _

lemma mem_entry_findings_of_admitted (h : Admitted e v s p) :
    f ∈ (entry e v s p).findings ↔
      f ∈ malformedFindings s p.path ∨
        ∃ type, s.type = some type ∧ f ∈ typeFindings e.dialect type p v := by
  rw [entry_of_admitted h]
  split
  · next ht => simp [ht]
  · next type ht => simp [ht]

lemma mem_entry_findings : f ∈ (entry e v s p).findings ↔ EntryViolation e v s p f := by
  constructor
  · intro h
    by_cases hv : v = .null
    · subst hv; simp [entry, Value.kind] at h
    have hk : v.kind ≠ .null := fun hk => hv (Value.kind_eq_null_iff.mp hk)
    cases hs : s.shapeError with
    | some error =>
      simp only [entry, hk, hs, if_false, List.mem_singleton] at h
      subst h
      exact .noSchema hv hs
    | none =>
      by_cases hd : e.maxDepth < (p.depth : Int)
      · simp only [entry, hk, hs, hd, if_false, if_true, List.mem_singleton] at h
        subst h
        exact .tooDeep hv hs hd
      have hadm : Admitted e v s p := ⟨hv, hs, by omega⟩
      rw [mem_entry_findings_of_admitted hadm, mem_malformedFindings] at h
      rcases h with ⟨k, hm, rfl⟩ | ⟨type, ht, hf⟩
      · exact .malformed hadm hm
      rw [mem_typeFindings] at hf
      rcases hf with ⟨hr, rfl⟩ | ⟨r, hr, ha, rfl⟩ | ⟨k, text, hr, hx, hh, rfl⟩
      · exact .unknownType hadm ht hr
      · exact .wrongType hadm ht hr ha
      · exact .wrongForm hadm ht hr hx hh
  · intro h
    cases h with
    | noSchema hv hs =>
      have hk : v.kind ≠ .null := fun hk => hv (Value.kind_eq_null_iff.mp hk)
      simp [entry, hk, hs]
    | tooDeep hv hs hd =>
      have hk : v.kind ≠ .null := fun hk => hv (Value.kind_eq_null_iff.mp hk)
      simp [entry, hk, hs, hd]
    | malformed hadm hm =>
      exact (mem_entry_findings_of_admitted hadm).mpr
        (Or.inl (mem_malformedFindings.mpr ⟨_, hm, rfl⟩))
    | unknownType hadm ht hr =>
      exact (mem_entry_findings_of_admitted hadm).mpr
        (Or.inr ⟨_, ht, mem_typeFindings.mpr (Or.inl ⟨hr, rfl⟩)⟩)
    | wrongType hadm ht hr ha =>
      exact (mem_entry_findings_of_admitted hadm).mpr
        (Or.inr ⟨_, ht, mem_typeFindings.mpr (Or.inr (Or.inl ⟨_, hr, ha, rfl⟩))⟩)
    | wrongForm hadm ht hr hx hh =>
      exact (mem_entry_findings_of_admitted hadm).mpr
        (Or.inr ⟨_, ht, mem_typeFindings.mpr (Or.inr (Or.inr ⟨_, _, hr, hx, hh, rfl⟩))⟩)

end Conform.Validator
