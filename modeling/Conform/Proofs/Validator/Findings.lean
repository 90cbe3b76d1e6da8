import Conform.Proofs.Validator.Checked

/-!
What a validation answers. It answers with findings exactly if no checked pair breaks off, and the
findings are then the violations of the checked pairs, all of them and nothing else.
-/

namespace Conform.Validator

variable {e : Setup} {v x : Value} {s t : Schema} {p q : Site} {f : Finding} {i : Interruption}
  {fs : List Finding} {path : String}

/-- No checked pair breaks off. -/
def Lasts (e : Setup) (v : Value) (s : Schema) (p : Site) : Prop :=
  ∀ x t q, Checked e v s p x t q → ∀ i, ¬BreaksOff e x t q i

def Violated (e : Setup) (v : Value) (s : Schema) (p : Site) (f : Finding) : Prop :=
  ∃ x t q, Checked e v s p x t q ∧ Violation e x t q f

lemma breaksOff_of_unwritable (h : Unwritable e v s p) : BreaksOff e v s p .numberTooLong := by
  obtain ⟨he, k, m, hv, hw⟩ := h
  exact .number he hv hw

lemma lasts_of_validate (h : validate e v s path = .ok fs) : Lasts e v s (Site.ofRoot path) := by
  intro x t q hc i hb
  have hi := error_mem_walk_of_checked hc hb
  rw [Notice.eq_ofFindings_of_gather h] at hi
  exact Notice.error_notMem_ofFindings hi

lemma mem_of_validate (h : validate e v s path = .ok fs) :
    f ∈ fs ↔ Violated e v s (Site.ofRoot path) f := by
  have hw : walk e v s (Site.ofRoot path) = Notice.ofFindings fs :=
    Notice.eq_ofFindings_of_gather h
  rw [← Notice.ok_mem_ofFindings, ← hw]
  constructor
  · exact explains_of_mem_walk
  · rintro ⟨x, t, q, hc, hv⟩
    refine ok_mem_walk_of_checked hc hv fun hu => ?_
    exact lasts_of_validate h x t q hc _ (breaksOff_of_unwritable hu)

lemma breaksOff_of_validate (h : validate e v s path = .error i) :
    ∃ x t q, Checked e v s (Site.ofRoot path) x t q ∧ BreaksOff e x t q i :=
  explains_of_mem_walk (Notice.error_mem_of_gather h)

lemma exists_validate_iff :
    (∃ fs, validate e v s path = .ok fs) ↔ Lasts e v s (Site.ofRoot path) := by
  constructor
  · rintro ⟨fs, h⟩
    exact lasts_of_validate h
  · intro h
    cases hv : validate e v s path with
    | ok fs => exact ⟨fs, rfl⟩
    | error i =>
      obtain ⟨x, t, q, hc, hb⟩ := breaksOff_of_validate hv
      exact absurd hb (h x t q hc i)

/-- **Soundness and completeness**: the findings of a validation are the violations of the checked
pairs, exactly if no checked pair breaks off; one that does is the only reason to answer with an
interruption. -/
theorem validate_finds_iff :
    ((∃ fs, validate e v s path = .ok fs ∧ ∀ f, f ∈ fs ↔ Violated e v s (Site.ofRoot path) f) ↔
      Lasts e v s (Site.ofRoot path)) ∧
    ∀ i, validate e v s path = .error i →
      ∃ x t q, Checked e v s (Site.ofRoot path) x t q ∧ BreaksOff e x t q i := by
  refine ⟨⟨?_, fun h => ?_⟩, fun i => breaksOff_of_validate⟩
  · rintro ⟨fs, h, -⟩
    exact lasts_of_validate h
  · obtain ⟨fs, hfs⟩ := exists_validate_iff.mpr h
    exact ⟨fs, hfs, fun f => mem_of_validate hfs⟩

lemma violated_second {d : Dialect} {u : Schema} {k : NumberKind} {n : Number} :
    Violated ⟨d, 32⟩ (.object [("a", x), ("b", .number k n)])
      { properties := [("a", u), ("b", { type := some "string" })] } (Site.ofRoot "$")
      (.invalidType "$.b" "string" (d.kindName (.numeric k)) false) := by
  refine ⟨.number k n, { type := some "string" }, (Site.ofRoot "$").member "b",
    .member .root (.of_untyped (by simp) rfl rfl (by simp [Site.ofRoot])) (.tail _ (.head _)) rfl,
    Or.inl ?_⟩
  have hb : Path.child "$" "b" = "$.b" := by decide +kernel
  rw [← hb]
  refine .wrongType ⟨by simp, rfl, by simp [Site.member, Site.ofRoot]⟩ rfl (r := .string) ?_ rfl
  cases d <;> rfl

lemma checked_first {d : Dialect} {u w : Schema} {y : Value} :
    Checked ⟨d, 32⟩ (.object [("a", x), ("b", y)]) { properties := [("a", u), ("b", w)] }
      (Site.ofRoot "$") x u ((Site.ofRoot "$").member "a") :=
  .member .root (.of_untyped (by simp) rfl rfl (by simp [Site.ofRoot])) (.head _) rfl

/-- A first member that cannot be written breaks a validation off, under a schema that asks for
nothing. -/
lemma not_lasts_first {d : Dialect} {w : Schema} {y : Value} {k : NumberKind} {n : Number}
    (hn : n.isWritable = false) :
    ¬Lasts ⟨d, 32⟩ (.object [("a", .number k n), ("b", y)])
      { properties := [("a", {}), ("b", w)] } (Site.ofRoot "$") := by
  intro h
  refine h _ _ _ checked_first .numberTooLong (.number ?_ rfl hn)
  exact .of_untyped (by simp) rfl rfl (by simp [Site.member, Site.ofRoot])

/-- Beside an integer that cannot be written, a member of the wrong type goes without a finding. -/
theorem unwritable_hides_violation :
    let v : Value := .object
      [("a", .number .integer (.int (Nat.pow 10 digitLimit))), ("b", .number .integer (.int 1))]
    let s : Schema := { properties := [("a", {}), ("b", { type := some "string" })] }
    let e : Setup := ⟨.toml, 32⟩
    Violated e v s (Site.ofRoot "$") (.invalidType "$.b" "string" "integer" false) ∧
      ¬∃ fs, validate e v s "$" = .ok fs ∧ ∀ f, f ∈ fs ↔ Violated e v s (Site.ofRoot "$") f := by
  refine ⟨violated_second, ?_⟩
  rintro ⟨fs, h, -⟩
  have hn := Number.isWritable_natCast_eq_false (Nat.le_refl (Nat.pow 10 digitLimit))
  exact not_lasts_first hn (lasts_of_validate h)

end Conform.Validator
