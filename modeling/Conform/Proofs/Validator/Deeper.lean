import Conform.Proofs.Validator.Depth
import Conform.Proofs.Validator.Findings

/-!
A greater limit on depth. What was found under the lesser limit is found again, in its order, but
for what told where the walk was cut off; and where it was cut off nowhere nothing changes.
-/

namespace Conform.Validator

open Notice

variable {d : Dialect} {m m' : Int} {v : Value} {s : Schema} {path : String}

/-- The findings but for those that the walk is cut off. -/
noncomputable def uncut (e : Setup) (v : Value) (s : Schema) (path : String) :
    List Finding → List Finding :=
  Finding.select fun f => ¬OnCut e v s (Site.ofRoot path) f

lemma uncovered_walk_ofRoot (hm : m ≤ m') :
    Uncovered (OnCut ⟨d, m⟩ v s (Site.ofRoot path))
      (walk ⟨d, m⟩ v s (Site.ofRoot path)) (walk ⟨d, m'⟩ v s (Site.ofRoot path)) :=
  uncovered_walk (Int.sub_le_sub_right hm _) fun _ hf => hf

/-- Nothing breaks off under a lesser limit that does not under a greater one. -/
lemma exists_validate_of_le (hm : m ≤ m') (h : ∃ gs, validate ⟨d, m'⟩ v s path = .ok gs) :
    ∃ fs, validate ⟨d, m⟩ v s path = .ok fs := by
  obtain ⟨gs, hgs⟩ := h
  cases hfs : validate ⟨d, m⟩ v s path with
  | ok fs => exact ⟨fs, rfl⟩
  | error i =>
    have hi := (uncovered_walk_ofRoot hm).error_mem (error_mem_of_gather hfs)
    rw [eq_ofFindings_of_gather hgs] at hi
    exact absurd hi error_notMem_ofFindings

/-- **A greater limit** only adds: both validations are answered, and what the one under the lesser
limit finds, but for where it is cut off, the other finds in the same order, exactly if no checked
pair of the other breaks off; and if the first is cut off nowhere, the other finds the same. -/
theorem validate_deeper (hm : m ≤ m') :
    ((∃ fs gs, validate ⟨d, m⟩ v s path = .ok fs ∧ validate ⟨d, m'⟩ v s path = .ok gs ∧
        (uncut ⟨d, m⟩ v s path fs).Sublist gs) ↔ Lasts ⟨d, m'⟩ v s (Site.ofRoot path)) ∧
    ∀ fs, validate ⟨d, m⟩ v s path = .ok fs →
      (∀ f ∈ fs, ¬OnCut ⟨d, m⟩ v s (Site.ofRoot path) f) → validate ⟨d, m'⟩ v s path = .ok fs := by
  have hwalk : Uncovered (OnCut ⟨d, m⟩ v s (Site.ofRoot path)) _ _ := uncovered_walk_ofRoot hm
  refine ⟨⟨?_, fun h => ?_⟩, fun fs hfs hno => ?_⟩
  · rintro ⟨fs, gs, -, hgs, -⟩
    exact lasts_of_validate hgs
  · obtain ⟨gs, hgs⟩ := exists_validate_iff.mpr h
    obtain ⟨fs, hfs⟩ := exists_validate_of_le hm ⟨gs, hgs⟩
    refine ⟨fs, gs, hfs, hgs, ?_⟩
    have hsub := hwalk.sublist
    rwa [eq_ofFindings_of_gather hfs, eq_ofFindings_of_gather hgs, findings_ofFindings,
      findings_ofFindings] at hsub
  · have heq := hwalk.eq_of_forall_not fun f hf => by
      rw [eq_ofFindings_of_gather hfs, ok_mem_ofFindings] at hf
      exact hno f hf
    rw [validate, ← heq]
    exact hfs

/-- An item of an item lies too deep for a limit of one; a limit of three finds in its place that it
has the wrong type. -/
theorem validate_deeper_item :
    let v : Value := .object [("a", .array [.array [.boolean true]]), ("b", .boolean true)]
    let t : Schema := { type := some "string" }
    let s : Schema :=
      { properties := [("a", { items := some { items := some t } }), ("b", t)], enum := some [] }
    let b : Finding := .invalidType "$.b" "string" "boolean" false
    let listed : Finding :=
      .invalidValue "$" "Value must be one of: " "one of []" "object with 2 keys"
    let fs : List Finding := [depthFinding 1 "$.a[0]", b, listed]
    let gs : List Finding := [.invalidType "$.a[0][0]" "string" "boolean" true, b, listed]
    (1 : Int) ≤ 3 ∧ validate ⟨.json, 1⟩ v s "$" = .ok fs ∧ validate ⟨.json, 3⟩ v s "$" = .ok gs ∧
      (uncut ⟨.json, 1⟩ v s "$" fs).Sublist gs := by
  intro v t s b listed fs gs
  have hfs : validate ⟨.json, 1⟩ v s "$" = .ok fs := by decide +kernel
  have hgs : validate ⟨.json, 3⟩ v s "$" = .ok gs := by decide +kernel
  have hm : (1 : Int) ≤ 3 := by decide
  obtain ⟨fs', gs', hfs', hgs', hsub⟩ := (validate_deeper hm).1.mpr (lasts_of_validate hgs)
  obtain rfl : fs = fs' := Except.ok.inj (hfs.symm.trans hfs')
  obtain rfl : gs = gs' := Except.ok.inj (hgs.symm.trans hgs')
  exact ⟨hm, hfs, hgs, hsub⟩

/-- A greater limit reaches an integer that cannot be written, and what was found before is found no
more. -/
theorem unwritable_uncovered :
    let v : Value := .object
      [("b", .number .integer (.int 1)),
        ("a", .object [("x", .number .integer (.int (Nat.pow 10 digitLimit)))])]
    let s : Schema :=
      { properties := [("b", { type := some "string" }), ("a", { properties := [("x", {})] })] }
    validate ⟨.toml, 1⟩ v s "$" =
        .ok [.invalidType "$.b" "string" "integer" false, depthFinding 1 "$.a.x"] ∧
      ¬∃ fs gs, validate ⟨.toml, 1⟩ v s "$" = .ok fs ∧ validate ⟨.toml, 2⟩ v s "$" = .ok gs ∧
        (uncut ⟨.toml, 1⟩ v s "$" fs).Sublist gs := by
  intro v s
  have hgs : validate ⟨.toml, 2⟩ v s "$" = .error .numberTooLong := by decide +kernel
  refine ⟨by decide +kernel, ?_⟩
  rintro ⟨fs, gs, -, h, -⟩
  cases hgs.symm.trans h

end Conform.Validator
