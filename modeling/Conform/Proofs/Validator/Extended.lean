import Mathlib.Data.List.Flatten
import Conform.Proofs.Schema.Extended
import Conform.Proofs.Validator.Descent
import Conform.Proofs.Validator.Findings

/-!
Schemas with more keywords. Each check of a node looks at its own keyword, says something or nothing,
and leaves the others to say theirs: so a keyword that is added to a schema, to one node of it or to
many, adds findings among those from before and takes none away. A node is entered or not as before,
since that does not depend on the keywords that may be added.
-/

namespace Conform.Validator

open Notice Schema

variable {d : Dialect} {e : Setup} {v : Value} {j k : Json} {p : Site} {path : String} {a : Step}
  {ns ms : List Notice} {gs : List Finding} {S : Json → Json → Prop}

lemma ofFindings_sublist {fs gs : List Finding} (h : fs.Sublist gs) :
    (ofFindings fs).Sublist (ofFindings gs) :=
  h.map _

/-- Notices among findings are findings among them. -/
lemma gather_of_sublist (h : ns.Sublist ms) (hms : gather ms = .ok gs) :
    ∃ fs, gather ns = .ok fs ∧ fs.Sublist gs := by
  rw [eq_ofFindings_of_gather hms] at h
  obtain ⟨fs, hsub, rfl⟩ := List.sublist_map_iff.mp h
  exact ⟨fs, gather_ofFindings fs, hsub⟩

lemma whenSet_sublist {α : Type} {o o' : Option α} {violated : α → Bool} {finding : α → Finding}
    (h : o = none ∨ o = o') : (whenSet o violated finding).Sublist (whenSet o' violated finding) := by
  rcases h with rfl | rfl
  · exact List.nil_sublist _
  · exact List.Sublist.refl _

lemma entry_of_tightens (h : Tightens S j k) : entry e v (ofJson j) p = entry e v (ofJson k) p := by
  simp only [entry, malformedFindings, h.type, h.shape, h.malformed]

lemma sizeFindings_sublist (h : Tightens S j k) (n : Nat) :
    (sizeFindings (ofJson j) path n).Sublist (sizeFindings (ofJson k) path n) := by
  have hmin := h.fields .minItems (by decide)
  have hmax := h.fields .maxItems (by decide)
  simp only [field, Keyword.default, Field.count.injEq] at hmin hmax
  exact (whenSet_sublist hmin).append (whenSet_sublist hmax)

lemma textNotices_sublist (h : Tightens S j k) (text shown : String) :
    (textNotices (ofJson j) path text shown).Sublist (textNotices (ofJson k) path text shown) := by
  have hmin := h.fields .minLength (by decide)
  have hmax := h.fields .maxLength (by decide)
  have hpattern := h.fields .pattern (by decide)
  simp only [field, Keyword.default, Field.count.injEq, Field.text.injEq] at hmin hmax hpattern
  have hlength : (lengthFindings (ofJson j) path text.length).Sublist
      (lengthFindings (ofJson k) path text.length) :=
    (whenSet_sublist hmin).append (whenSet_sublist hmax)
  refine (ofFindings_sublist hlength).append ?_
  rcases hpattern with hnone | hsame
  · rw [hnone]
    exact List.nil_sublist _
  · rw [hsame]

lemma numberNotices_sublist (h : Tightens S j k) (n : Number) :
    (numberNotices (ofJson j) path n).Sublist (numberNotices (ofJson k) path n) := by
  have hmin := h.fields .minimum (by decide)
  have hmax := h.fields .maximum (by decide)
  have hlow := h.fields .exclusiveMinimum (by decide)
  have hhigh := h.fields .exclusiveMaximum (by decide)
  have hmultiple := h.fields .multipleOf (by decide)
  simp only [field, Keyword.default, Field.number.injEq] at hmin hmax hlow hhigh hmultiple
  have hfindings : (numberFindings (ofJson j) path n).Sublist (numberFindings (ofJson k) path n) :=
    ((((whenSet_sublist hmin).append (whenSet_sublist hmax)).append (whenSet_sublist hlow)).append
      (whenSet_sublist hhigh)).append (whenSet_sublist hmultiple)
  rw [numberNotices, numberNotices]
  split
  · exact ofFindings_sublist hfindings
  · exact List.Sublist.refl _

lemma enumFindings_sublist (h : Tightens S j k) :
    (enumFindings (ofJson j) path v).Sublist (enumFindings (ofJson k) path v) := by
  have henum := h.fields .enum (by decide)
  simp only [field, Keyword.default, Field.literals.injEq] at henum
  exact whenSet_sublist henum

lemma strayFindings_sublist (h : Tightens S j k) :
    (strayFindings (ofJson j) path a).Sublist (strayFindings (ofJson k) path a) := by
  have hadditional := h.fields .additionalProperties (by decide)
  simp only [field, Keyword.default, Field.flag.injEq] at hadditional
  cases a with
  | index i => exact List.Sublist.refl _
  | key key =>
    rw [strayFindings, strayFindings, undeclaredFindings, undeclaredFindings]
    rcases hadditional with hnone | hsame
    · rw [hnone]
      exact List.nil_sublist _
    · rw [hsame]

/-- What is said of a missing member depends on its property only by what type that names. -/
lemma missingFinding_of_extended (h : Extended j k) (name : String) :
    missingFinding d (ofJson j) path name = missingFinding d (ofJson k) path name := by
  have hproperty (l : Json) : (ofJson l).property? name = (fragment? l (.key name)).map ofJson :=
    under?_ofJson (a := .key name)
  rw [missingFinding, missingFinding, hproperty, hproperty]
  cases hj : fragment? j (.key name) with
  | none => rw [h.tightens.declares name hj]
  | some j' =>
    obtain ⟨k', hk, h'⟩ := h.tightens.below _ j' hj
    have htable : (ofJson j').declaresTable = (ofJson k').declaresTable := by
      rw [declaresTable, declaresTable, h'.tightens.type]
    simp only [hk, Option.map_some, htable]

lemma missingFindings_sublist (h : Extended j k) (ms : List (String × Value)) :
    (missingFindings d (ofJson j) path ms).Sublist (missingFindings d (ofJson k) path ms) := by
  have hrequired := h.tightens.fields .required (by decide)
  simp only [field, Keyword.default, Field.names.injEq] at hrequired
  rw [missingFindings, missingFindings, funext (missingFinding_of_extended h)]
  rcases hrequired with hnone | hsame
  · rw [hnone]
    exact List.nil_sublist _
  · rw [hsame]

lemma contentNotices_sublist (h : Extended j k) :
    (contentNotices d (ofJson j) path v).Sublist (contentNotices d (ofJson k) path v) := by
  cases v with
  | object ms => exact ofFindings_sublist (missingFindings_sublist h ms)
  | array vs => exact ofFindings_sublist (sizeFindings_sublist h.tightens vs.length)
  | string text => exact textNotices_sublist h.tightens text _
  | temporal kind text => exact textNotices_sublist h.tightens text _
  | number kind n => exact numberNotices_sublist h.tightens n
  | boolean | null => exact List.Sublist.refl _

/-! ### The walk under both schemas -/

/-- The notices under a schema are among those under the schema with keywords added, in order. -/
theorem walk_sublist (h : Extended j k) :
    (walk e v (ofJson j) p).Sublist (walk e v (ofJson k) p) := by
  induction v using Value.children_induction generalizing j k p with
  | node v ih =>
    rw [walk_eq, walk_eq, around, around, entry_of_tightens h.tightens]
    refine (List.Sublist.refl _).append ?_
    split
    · refine (contentNotices_sublist h).append (.flatMap_right _ fun c hc => ?_) |>.append
        (ofFindings_sublist (enumFindings_sublist h.tightens))
      obtain ⟨a, x⟩ := c
      have hunder (l : Json) : (ofJson l).under? a = (fragment? l a).map ofJson := under?_ofJson
      cases hj : fragment? j a with
      | some j' =>
        obtain ⟨k', hk, h'⟩ := h.tightens.below a j' hj
        rw [childNotices_of_some ((hunder j).trans (congrArg _ hj)),
          childNotices_of_some ((hunder k).trans (congrArg _ hk))]
        exact ih (a, x) hc h'
      | none =>
        rw [childNotices_of_none ((hunder j).trans (congrArg _ hj))]
        cases hk : fragment? k a with
        | none =>
          rw [childNotices_of_none ((hunder k).trans (congrArg _ hk))]
          exact ofFindings_sublist (strayFindings_sublist h.tightens)
        | some k' =>
          -- only items can have been added here, and of items without a schema nothing is said
          cases a with
          | key name => cases (h.tightens.declares name hj).symm.trans hk
          | index i => exact List.nil_sublist _
    · exact List.Sublist.refl _

/-- **Adding keywords** hides nothing: both validations are answered, and what is found under the
first schema is found under the other in the same order, exactly if no pair that is checked under the
other breaks off. -/
theorem validate_extended (h : Extended j k) :
    (∃ fs gs, validate e v (ofJson j) path = .ok fs ∧ validate e v (ofJson k) path = .ok gs ∧
      fs.Sublist gs) ↔ Lasts e v (ofJson k) (Site.ofRoot path) := by
  constructor
  · rintro ⟨fs, gs, -, hgs, -⟩
    exact lasts_of_validate hgs
  · intro hlasts
    obtain ⟨gs, hgs⟩ := exists_validate_iff.mpr hlasts
    obtain ⟨fs, hfs, hsub⟩ := gather_of_sublist (walk_sublist h) hgs
    exact ⟨fs, gs, hfs, hgs, hsub⟩

/-- A required member and a divisor of a property are added: two findings more, one on either side of
the one from before. -/
theorem validate_extended_three :
    let a : List (String × Json) := [("minimum", .number (.int 4))]
    let a' : List (String × Json) := ("multipleOf", .number (.int 2)) :: a
    let j : Json := .object [("properties", .object [("a", .object a)])]
    let k : Json := .object
      [("properties", .object [("a", .object a')]), ("required", .array [.string "b"])]
    let v : Value := .object [("a", .number .number (.int 3))]
    let small : Finding :=
      .invalidValue "$.a" "Number is less than required minimum 4" ">= 4" "3"
    let odd : Finding :=
      .invalidValue "$.a" "Number must be a multiple of 2" "multiple of 2" "3"
    Extended j k ∧ validate ⟨.json, 32⟩ v (ofJson j) "$" = .ok [small] ∧
      validate ⟨.json, 32⟩ v (ofJson k) "$" = .ok [.missingProperty "$.b" "b", small, odd] ∧
      [small].Sublist [.missingProperty "$.b" "b", small, odd] := by
  intro a a' j k v small odd
  have ha : Extended (.object a) (.object a') :=
    .keyword (w := .multipleOf) [] a (by decide) rfl (by decide)
  have hroot : Extended (.object [("properties", .object [("a", .object a')])]) k :=
    .keyword (w := .required) [("properties", .object [("a", .object a')])] [] (by decide) rfl
      (by decide)
  have h : Extended j k := .trans (.property "a" [] [] [] [] ha) hroot
  have hfs : validate ⟨.json, 32⟩ v (ofJson j) "$" = .ok [small] := by decide +kernel
  have hgs : validate ⟨.json, 32⟩ v (ofJson k) "$" =
      .ok [.missingProperty "$.b" "b", small, odd] := by decide +kernel
  obtain ⟨fs, gs, hfs', hgs', hsub⟩ := (validate_extended h).mpr (lasts_of_validate hgs)
  cases hfs.symm.trans hfs'
  cases hgs.symm.trans hgs'
  exact ⟨h, hfs, hgs, hsub⟩

/-- Items that are added lead to an integer that cannot be written, and what was found before is
found no more. -/
theorem unwritable_item_hides :
    let b : String × Json := ("b", .object [("type", .string "string")])
    let j : Json := .object [("properties", .object [b, ("a", .object [])])]
    let k : Json := .object
      [("properties", .object [b, ("a", .object [("items", .object [])])])]
    let v : Value := .object
      [("b", .number .integer (.int 1)),
        ("a", .array [.number .integer (.int (Nat.pow 10 digitLimit))])]
    Extended j k ∧
      validate ⟨.toml, 32⟩ v (ofJson j) "$" =
        .ok [.invalidType "$.b" "string" "integer" false] ∧
      ¬∃ fs gs, validate ⟨.toml, 32⟩ v (ofJson j) "$" = .ok fs ∧
        validate ⟨.toml, 32⟩ v (ofJson k) "$" = .ok gs ∧ fs.Sublist gs := by
  intro b j k v
  have ha : Extended (.object []) (.object [("items", .object [])]) :=
    .keyword (w := .items) [] [] (by decide) rfl (by decide)
  have hgs : validate ⟨.toml, 32⟩ v (ofJson k) "$" = .error .numberTooLong := by decide +kernel
  refine ⟨.property "a" [b] [] [] [] ha, by decide +kernel, ?_⟩
  rintro ⟨fs, gs, -, h, -⟩
  cases hgs.symm.trans h

end Conform.Validator
