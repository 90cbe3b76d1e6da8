import Conform.Proofs.Schema.Nodes
import Conform.Proofs.Validator.FailSoft
import Conform.Proofs.Validator.Influence
import Conform.Proofs.Validator.Paired
import Conform.Proofs.Validator.Simulation
import Conform.Proofs.Value.Respelled

/-!
Validation of whole numbers, however they are written. Two documents that write some whole numbers
in another way are walked side by side: their nodes have the same types, miss the same bounds,
multiples and listed values, and only the words for what was found differ.
-/

namespace Conform

structure Finding.SameButFound (f g : Finding) : Prop where
  kind : f.kind = g.kind
  path : f.path = g.path
  message : f.message = g.message
  expected : f.expected = g.expected

lemma Finding.SameButFound.refl (f : Finding) : SameButFound f f := ⟨rfl, rfl, rfl, rfl⟩

namespace Schema

variable {j : Json} {t : Schema} {d : Int}

/-- An integer that the schema asks multiples of is the value of a double. -/
def ExactDivisor (s : Schema) : Prop :=
  ∀ d, s.multipleOf = some (.int d) → ∃ x : Binary64, x.toInt? = some d

lemma multipleOf_ofJson {c : Number} (h : (ofJson j).multipleOf = some c) :
    c.le (.int 0) = false := by
  cases j with
  | object ms =>
    obtain ⟨k, -, hk⟩ := Option.bind_eq_some_iff.mp h
    unfold divisor? at hk
    split at hk
    · next n =>
      split at hk
      · cases hk
      · next hn =>
        cases hk
        exact Bool.eq_false_of_not_eq_true hn
    · cases hk
  | null | bool | number | string | array => cases h

/-- No divisor of a schema that is read is zero. -/
lemma divides_of_read (h : (ofJson j).Everywhere ExactDivisor) :
    (ofJson j).Everywhere fun t => ∀ c ∈ t.multipleOf, c.Divides := by
  rintro t ht c hc d rfl
  obtain ⟨k, -, rfl⟩ := ht.read_of (fun _ _ => trivial) trivial
  refine ⟨?_, h _ ht d hc⟩
  rintro rfl
  have hpositive := multipleOf_ofJson hc
  revert hpositive
  decide

end Schema

namespace Validator

open Notice Schema

variable {e : Setup} {v w : Value} {s : Schema} {p : Site} {path : String} {a b : Number}

lemma accepts_respelled (h : v.Respelled w) (d : Dialect) (r : TypeRule) :
    r.accepts d v = r.accepts d w := by
  cases h with
  | same => rfl
  | number k h =>
    cases r with
    | integer => cases d <;> simp only [TypeRule.accepts, Dialect.isInteger, h.isWhole]
    | object | table | array | string | number | float | boolean | null | any | temporal => rfl
  | array | object => cases r <;> rfl

lemma entry_respelled (h : v.Respelled w) : entry e v s p = entry e w s p := by
  refine entry_congr h.kind fun type => ?_
  unfold typeFindings formFindings
  simp only [h.kind, h.text?, accepts_respelled h]

lemma whenSet_sameButFound {α : Type} {setting : Option α} {violated violated' : α → Bool}
    {finding finding' : α → Finding} (hv : ∀ x ∈ setting, violated x = violated' x)
    (hf : ∀ x, (finding x).SameButFound (finding' x)) :
    List.Forall₂ Finding.SameButFound (whenSet setting violated finding)
      (whenSet setting violated' finding') := by
  cases setting with
  | none => exact .nil
  | some x =>
    rw [whenSet, whenSet, hv x rfl]
    split
    · exact .cons (hf x) .nil
    · exact .nil

lemma numberFindings_respelled (h : a.Respelled b)
    (hs : ∀ c ∈ s.multipleOf, c.Divides) :
    List.Forall₂ Finding.SameButFound (numberFindings s path a) (numberFindings s path b) := by
  have hinvalid {message expected : String} :
      (Finding.invalidValue path message expected a.text).SameButFound
        (.invalidValue path message expected b.text) := ⟨rfl, rfl, rfl, rfl⟩
  refine List.rel_append (List.rel_append (List.rel_append (List.rel_append ?_ ?_) ?_) ?_) ?_
  · exact whenSet_sameButFound (fun c _ => h.lt_left c) fun _ => hinvalid
  · exact whenSet_sameButFound (fun c _ => h.lt_right c) fun _ => hinvalid
  · exact whenSet_sameButFound (fun c _ => h.le_left c) fun _ => hinvalid
  · exact whenSet_sameButFound (fun c _ => h.le_right c) fun _ => hinvalid
  · exact whenSet_sameButFound (fun c hc => h.offMultiple (hs c hc)) fun _ => hinvalid

lemma enumFindings_respelled (h : v.Respelled w) :
    List.Forall₂ Finding.SameButFound (enumFindings s path v) (enumFindings s path w) :=
  whenSet_sameButFound (fun js _ => by simp only [h.sameLiterals _]) fun _ => ⟨rfl, rfl, rfl, rfl⟩

lemma contentNotices_respelled (h : v.Respelled w) (hs : ∀ c ∈ s.multipleOf, c.Divides)
    {d : Dialect} :
    List.Forall₂ (Paired Finding.SameButFound) (contentNotices d s path v)
      (contentNotices d s path w) := by
  cases h with
  | same => exact paired_same .refl _
  | @number k a b h =>
    rw [contentNotices, contentNotices, numberNotices, numberNotices, ← h.isWritable]
    split
    · exact paired_ofFindings (numberFindings_respelled h hs)
    · exact .cons (.ended _) .nil
  | array length =>
    rw [contentNotices, contentNotices, length]
    exact paired_same .refl _
  | object keys =>
    rw [contentNotices, contentNotices, missingFindings_of_keys_eq keys]
    exact paired_same .refl _

lemma simulation_respelled : Simulation e e
    (fun v s w t => v.Respelled w ∧ s = t ∧ s.Everywhere fun t => ∀ c ∈ t.multipleOf, c.Divides)
    (List.Forall₂ (Paired Finding.SameButFound)) where
  nil := .nil
  append h h' := List.rel_append h h'
  around := by
    rintro v s w _ p inside inside' ⟨h, rfl, -⟩ hin
    rw [around, around, ← entry_respelled h]
    refine List.rel_append (paired_same .refl _) ?_
    split
    · exact List.rel_append hin (paired_ofFindings (enumFindings_respelled h))
    · exact .nil
  content := by
    rintro v s w _ path ⟨h, rfl, hs⟩
    exact contentNotices_respelled h hs.here
  children := by
    rintro v s w _ ⟨h, rfl, hs⟩
    exact h.children.imp fun c c' hc =>
      .of_same hc.1 (paired_same .refl) fun u hu => ⟨hc.2, rfl, hs.under hu⟩

/-- **Spelling does not matter**: two documents that write some whole numbers in another way, under
a schema whose integer divisors are values of doubles, have findings that agree one by one in all
but what was found, exactly if no checked pair breaks off, and end with the same interruption
otherwise. -/
theorem validate_respelled {j : Json} (h : v.Respelled w)
    (hj : (ofJson j).Everywhere ExactDivisor) :
    ((∃ fs gs, validate e v (ofJson j) path = .ok fs ∧ validate e w (ofJson j) path = .ok gs ∧
        List.Forall₂ Finding.SameButFound fs gs) ↔
      Lasts e v (ofJson j) (Site.ofRoot path)) ∧
    ∀ i, validate e v (ofJson j) path = .error i ↔ validate e w (ofJson j) path = .error i :=
  validate_paired (simulation_respelled.walk ⟨h, rfl, divides_of_read hj⟩)

/-- Three and seven, with and without a fraction of zeros: both are too small or no multiple, and
the first item of an array that is listed may be written in both ways. -/
theorem validate_respelled_seven :
    let one : Binary64 := .finite false 0x10000000000000 (-52) (by decide)
    let three : Binary64 := .finite false 0x18000000000000 (-51) (by decide)
    let seven : Binary64 := .finite false 0x1c000000000000 (-50) (by decide)
    let int (n : Int) : Value := .number .number (.int n)
    let double (x : Binary64) : Value := .number .number (.double x)
    let v : Value := .object [("a", int 3), ("b", .array [double one, .null]), ("c", double seven)]
    let w : Value := .object [("a", double three), ("b", .array [int 1, .null]), ("c", int 7)]
    let j : Json := .object [("properties", .object
      [("a", .object [("type", .string "integer"), ("minimum", .number (.int 4))]),
        ("b", .object [("enum", .array [.array [.number (.int 1), .null]])]),
        ("c", .object [("multipleOf", .number (.int 2))])])]
    let small (found : String) : Finding :=
      .invalidValue "$.a" "Number is less than required minimum 4" ">= 4" found
    let odd (found : String) : Finding :=
      .invalidValue "$.c" "Number must be a multiple of 2" "multiple of 2" found
    v.Respelled w ∧ (ofJson j).Everywhere ExactDivisor ∧
      validate ⟨.json, 32⟩ v (ofJson j) "$" = .ok [small "3", odd "7.0"] ∧
      validate ⟨.json, 32⟩ w (ofJson j) "$" = .ok [small "3.0", odd "7"] ∧
      List.Forall₂ Finding.SameButFound [small "3", odd "7.0"] [small "3.0", odd "7"] := by
  intro one three seven int double v w j small odd
  have hb : Value.Respelled (.array [double one, .null]) (.array [int 1, .null]) :=
    .array rfl (List.forall_mem_cons.mpr
      ⟨.number _ (.int (by decide)), List.forall_mem_singleton.mpr (.same _)⟩)
  have h : v.Respelled w :=
    .object rfl (List.forall_mem_cons.mpr ⟨.number _ (.double (by decide)),
      List.forall_mem_cons.mpr ⟨hb, List.forall_mem_singleton.mpr (.number _ (.int (by decide)))⟩⟩)
  have htwo : (ofJson (.object [("multipleOf", .number (.int 2))])).ExactDivisor := by
    rintro d ⟨⟩
    exact ⟨.finite false 0x10000000000000 (-51) (by decide), by decide⟩
  have hj : (ofJson j).Everywhere ExactDivisor := by
    refine .intro nofun ?_ nofun
    exact List.forall_mem_cons.mpr ⟨.leaf nofun rfl rfl, List.forall_mem_cons.mpr
      ⟨.leaf nofun rfl rfl, List.forall_mem_singleton.mpr (.leaf htwo rfl rfl)⟩⟩
  have hv : validate ⟨.json, 32⟩ v (ofJson j) "$" = .ok [small "3", odd "7.0"] := by
    decide +kernel
  have hw : validate ⟨.json, 32⟩ w (ofJson j) "$" = .ok [small "3.0", odd "7"] := by
    decide +kernel
  obtain ⟨fs, gs, hfs, hgs, hfg⟩ := (validate_respelled h hj).1.mpr (lasts_of_validate hv)
  rw [hv] at hfs
  rw [hw] at hgs
  cases hfs
  cases hgs
  exact ⟨h, hj, hv, hw, hfg⟩

/-- A count that no repetition may have leaves both validations without findings. -/
theorem hugeCount_hides_spellings :
    let v : Value := .object [("a", .string "x"), ("b", .number .number (.int 1))]
    let w : Value := .object [("a", .string "x"),
      ("b", .number .number (.double (.finite false 0x10000000000000 (-52) (by decide))))]
    let j : Json := .object [("properties", .object
      [("a", .object [("pattern", .string "a\x7b4294967295\x7d")]),
        ("b", .object [("type", .string "string")])])]
    v.Respelled w ∧ (ofJson j).Everywhere ExactDivisor ∧
      ¬∃ fs gs, validate ⟨.json, 32⟩ v (ofJson j) "$" = .ok fs ∧
        validate ⟨.json, 32⟩ w (ofJson j) "$" = .ok gs ∧
        List.Forall₂ Finding.SameButFound fs gs := by
  intro v w j
  have h : v.Respelled w :=
    .object rfl (List.forall_mem_cons.mpr
      ⟨.same _, List.forall_mem_singleton.mpr (.number _ (.double (by decide)))⟩)
  have hj : (ofJson j).Everywhere ExactDivisor := by
    refine .intro nofun ?_ nofun
    exact List.forall_mem_cons.mpr
      ⟨.leaf nofun rfl rfl, List.forall_mem_singleton.mpr (.leaf nofun rfl rfl)⟩
  refine ⟨h, hj, ?_⟩
  rintro ⟨fs, -, hfs, -⟩
  refine lasts_of_validate hfs _ _ _ checked_first _ (.pattern ?_ rfl rfl compile_hugeCount)
  exact .of_untyped (by simp) rfl rfl (by simp [Site.member, Site.ofRoot])

end Validator

end Conform
