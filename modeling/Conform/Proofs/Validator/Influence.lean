import Conform.Proofs.Validator.Order

/-!
What a subtree has influence on. Two documents that differ only below a position are walked alike
there and elsewhere: a container is entered for its kind, and says the same of its size and of
members that it lacks, whatever is in it. Only the listed values compare a container with all that
is in it. So the findings differ only below the position and in what is said of the containers on
the way not being listed.
-/

namespace Conform.Validator

open Notice

variable {d : Dialect} {e : Setup} {v w x y : Value} {s t : Schema} {p q : Site} {f : Finding}
  {path : String} {a : Step} {steps : List Step} {C : Notice → Bool}

/-- The finding that a container on the way to a position is not listed. -/
def UnlistedOnWay (path : String) (steps : List Step) (f : Finding) : Prop :=
  Unlisted f ∧ ∃ l a r, steps = l ++ a :: r ∧ f.path = l.foldl Path.down path

noncomputable def offWay (path : String) (steps : List Step) : List Finding → List Finding :=
  Finding.select fun f => ¬UnlistedOnWay path steps f

/-- The findings that a subtree has no influence on: they are neither located at its position or
below it, nor do they say that a container on the way is not listed. -/
noncomputable def uninfluenced (path : String) (steps : List Step) :
    List Finding → List Finding :=
  Finding.select fun f => ¬AtOrBelow (steps.foldl Path.down path) f ∧ ¬UnlistedOnWay path steps f

lemma UnlistedOnWay.cons (h : UnlistedOnWay (Path.down path a) steps f) :
    UnlistedOnWay path (a :: steps) f := by
  obtain ⟨hl, l, b, r, rfl, hf⟩ := h
  exact ⟨hl, a :: l, b, r, rfl, hf⟩

lemma entry_congr (hkind : v.kind = w.kind)
    (htype : ∀ type, typeFindings e.dialect type p v = typeFindings e.dialect type p w) :
    entry e v s p = entry e w s p := by
  simp only [entry, hkind, htype]

lemma entry_object (ms ms' : List (String × Value)) :
    entry e (.object ms) s p = entry e (.object ms') s p := by
  refine entry_congr rfl fun type => ?_
  unfold typeFindings
  cases e.dialect.rule? type with
  | none => rfl
  | some r => cases r <;> rfl

lemma entry_array (vs vs' : List Value) :
    entry e (.array vs) s p = entry e (.array vs') s p := by
  refine entry_congr rfl fun type => ?_
  unfold typeFindings
  cases e.dialect.rule? type with
  | none => rfl
  | some r => cases r <;> rfl

lemma missingFindings_of_keys_eq {ms ms' : List (String × Value)}
    (h : Members.keys ms = Members.keys ms') :
    missingFindings d s path ms = missingFindings d s path ms' := by
  unfold missingFindings
  congr 1
  refine List.filter_congr fun name _ => ?_
  rw [Bool.eq_iff_iff, Option.isNone_iff_eq_none, Option.isNone_iff_eq_none,
    Members.get?_eq_none_iff, Members.get?_eq_none_iff, h]

lemma filter_childNotices
    (h : ∀ t, s.under? a = some t →
      (walk e x t (p.down a)).filter C = (walk e y t (p.down a)).filter C) :
    (childNotices e s p (a, x)).filter C = (childNotices e s p (a, y)).filter C := by
  cases hu : s.under? a with
  | none => rw [childNotices_of_none hu, childNotices_of_none hu]
  | some t =>
    rw [childNotices_of_some hu, childNotices_of_some hu]
    exact h t hu

/-- Two containers that are entered alike and say the same of themselves, with the same in them but
for one child of which the chosen notices are the same. -/
lemma filter_walk_of_child {l r : List (Step × Value)} (hv : v.children = l ++ (a, x) :: r)
    (hw : w.children = l ++ (a, y) :: r) (hentry : entry e v s p = entry e w s p)
    (hcontent : contentNotices e.dialect s p.path v = contentNotices e.dialect s p.path w)
    (hlisted : ∀ f, f.path = p.path → Unlisted f → C (.ok f) = false)
    (hchild : ∀ t, s.under? a = some t →
      (walk e x t (p.down a)).filter C = (walk e y t (p.down a)).filter C) :
    (walk e v s p).filter C = (walk e w s p).filter C := by
  have henum : ∀ u : Value, (ofFindings (enumFindings s p.path u)).filter C = [] := by
    refine fun u => List.filter_eq_nil_iff.mpr fun n hn => ?_
    obtain ⟨f, hf, rfl⟩ := List.mem_map.mp hn
    simp [hlisted f (path_eq_of_mem_enumFindings hf) (unlisted_of_mem_enumFindings hf)]
  rw [walk_eq e v, walk_eq e w, around, around, hentry, hcontent, hv, hw]
  split
  · simp only [List.filter_append, List.flatMap_append, List.flatMap_cons,
      filter_childNotices hchild, henum]
  · rfl

/-! ### Walking both documents -/

/-- A choice of notices that leaves out what is said of containers not being listed on the way. -/
def LeavesOutWay (C : Notice → Bool) (path : String) (steps : List Step) : Prop :=
  ∀ f, UnlistedOnWay path steps f → C (.ok f) = false

lemma LeavesOutWay.down (h : LeavesOutWay C path (a :: steps)) :
    LeavesOutWay C (Path.down path a) steps :=
  fun f hf => h f hf.cons

lemma LeavesOutWay.here (h : LeavesOutWay C path (a :: steps)) (hf : f.path = path)
    (hl : Unlisted f) : C (.ok f) = false :=
  h f ⟨hl, [], a, steps, rfl, hf⟩

/-- Whatever is at a position, if the schema leads to it, the chosen notices are the same. -/
def AlikeAt (e : Setup) (C : Notice → Bool) (s : Schema) (path : String) (steps : List Step) :
    Prop :=
  ∀ x y t q, s.follow? steps = some t → q.path = steps.foldl Path.down path →
    (walk e x t q).filter C = (walk e y t q).filter C

lemma AlikeAt.down (h : AlikeAt e C s path (a :: steps)) (ht : s.under? a = some t) :
    AlikeAt e C t (Path.down path a) steps := by
  intro x y u q hu hq
  refine h x y u q ?_ hq
  rw [Schema.follow?, ht]
  exact hu

/-- From two documents that differ only at a position, the same is chosen if that is so there. -/
theorem filter_walk_of_sameOutside (h : Value.SameOutside steps v w)
    (hway : LeavesOutWay C p.path steps) (hend : AlikeAt e C s p.path steps) :
    (walk e v s p).filter C = (walk e w s p).filter C := by
  induction h generalizing s p with
  | here x y => exact hend x y s p rfl rfl
  | @member steps key x y pre post _ ih =>
    refine filter_walk_of_child (a := .key key) (x := x) (y := y)
      (l := pre.map fun m => (.key m.1, m.2)) (r := post.map fun m => (.key m.1, m.2))
      ?_ ?_ (entry_object _ _) ?_ (fun f => hway.here) fun t ht => ih hway.down (hend.down ht)
    · simp [Value.children]
    · simp [Value.children]
    · exact congrArg ofFindings (missingFindings_of_keys_eq (by simp [Members.keys]))
  | @item steps x y pre post _ ih =>
    refine filter_walk_of_child (a := .index pre.length) (x := x) (y := y)
      (l := pre.mapIdx fun i v => (.index i, v))
      (r := post.mapIdx fun i v => (.index ((i + 1 + pre.length : Nat) : Int), v))
      ?_ ?_ (entry_array _ _) ?_ (fun f => hway.here) fun t ht => ih hway.down (hend.down ht)
    · simp [Value.children, List.mapIdx_append]
    · simp [Value.children, List.mapIdx_append]
    · simp [contentNotices]

/-! ### What a subtree has influence on -/

lemma uninfluenced_findings_walk (h : Value.SameOutside steps v w) :
    uninfluenced p.path steps (findings (walk e v s p)) =
      uninfluenced p.path steps (findings (walk e w s p)) := by
  -- at the position itself nothing is chosen, whatever is there
  have hend : AlikeAt e (choice false fun f => ¬AtOrBelow (steps.foldl Path.down p.path) f ∧
      ¬UnlistedOnWay p.path steps f) s p.path steps := by
    intro x y t q _ hq
    have none_chosen : ∀ z : Value, ∀ f, .ok f ∈ walk e z t q →
        ¬(¬AtOrBelow (steps.foldl Path.down p.path) f ∧ ¬UnlistedOnWay p.path steps f) := by
      intro z f hf hn
      rw [← hq] at hn
      exact hn.1 (atOrBelow_of_mem_walk hf)
    rw [filter_choice_eq_nil (none_chosen x), filter_choice_eq_nil (none_chosen y)]
  have hwalk := congrArg findings
    (filter_walk_of_sameOutside h (fun f hf => choice_eq_false fun hn => hn.2 hf) hend)
  rw [findings_choice, findings_choice] at hwalk
  exact hwalk

lemma offWay_validate_of_unreached (h : Value.SameOutside steps v w)
    (hout : s.follow? steps = none) :
    (validate e v s path).map (offWay path steps) =
      (validate e w s path).map (offWay path steps) := by
  have hend : AlikeAt e (choice true fun f => ¬UnlistedOnWay path steps f) s path steps := by
    intro x y t q ht
    cases hout.symm.trans ht
  have hwalk := congrArg gather (filter_walk_of_sameOutside (p := Site.ofRoot path) h
    (fun f hf => choice_eq_false fun hn => hn hf) hend)
  rw [gather_choice, gather_choice] at hwalk
  exact hwalk

/-- **Influence**: of two documents that differ only at a position, both are answered with findings,
and with the same but for those located there or below and those that a container on the way is not
listed, exactly if no checked pair of either breaks off. If the schema does not lead to the
position, they are answered alike but for containers on the way that are not listed. -/
theorem subtree_influence (h : Value.SameOutside steps v w) :
    ((∃ fs gs, validate e v s path = .ok fs ∧ validate e w s path = .ok gs ∧
        uninfluenced path steps fs = uninfluenced path steps gs) ↔
      Lasts e v s (Site.ofRoot path) ∧ Lasts e w s (Site.ofRoot path)) ∧
    (s.follow? steps = none →
      (validate e v s path).map (offWay path steps) =
        (validate e w s path).map (offWay path steps)) := by
  refine ⟨⟨?_, ?_⟩, offWay_validate_of_unreached h⟩
  · rintro ⟨fs, gs, hfs, hgs, -⟩
    exact ⟨lasts_of_validate hfs, lasts_of_validate hgs⟩
  · rintro ⟨hv, hw⟩
    obtain ⟨fs, hfs⟩ := exists_validate_iff.mpr hv
    obtain ⟨gs, hgs⟩ := exists_validate_iff.mpr hw
    refine ⟨fs, gs, hfs, hgs, ?_⟩
    have heq := uninfluenced_findings_walk (e := e) (s := s) (p := Site.ofRoot path) h
    rw [eq_ofFindings_of_gather hfs, eq_ofFindings_of_gather hgs, findings_ofFindings,
      findings_ofFindings] at heq
    exact heq

/-- An item of the wrong type adds a finding on itself and changes what is said of its array, which
is not listed; the finding on the other member stays. -/
theorem subtree_influence_item :
    let v : Value := .object
      [("a", .array [.number .number (.int 1), .number .number (.int 2)]), ("b", .boolean true)]
    let w : Value := .object
      [("a", .array [.number .number (.int 1), .string "x"]), ("b", .boolean true)]
    let s : Schema :=
      { properties := [("a", { items := some { type := some "number" }, enum := some [] }),
          ("b", { type := some "string" })] }
    let unlisted : Finding :=
      .invalidValue "$.a" "Value must be one of: " "one of []" "array with 2 items"
    let fs : List Finding := [unlisted, .invalidType "$.b" "string" "boolean" false]
    let gs : List Finding :=
      [.invalidType "$.a[1]" "number" "string" true, unlisted,
        .invalidType "$.b" "string" "boolean" false]
    let steps : List Step := [.key "a", .index 1]
    Value.SameOutside steps v w ∧ validate ⟨.json, 32⟩ v s "$" = .ok fs ∧
      validate ⟨.json, 32⟩ w s "$" = .ok gs ∧
      uninfluenced "$" steps fs = uninfluenced "$" steps gs := by
  intro v w s unlisted fs gs steps
  have hitem : Value.SameOutside steps v w :=
    .member [] _ (.item [.number .number (.int 1)] [] (.here _ _))
  have hv : validate ⟨.json, 32⟩ v s "$" = .ok fs := by decide +kernel
  have hw : validate ⟨.json, 32⟩ w s "$" = .ok gs := by decide +kernel
  obtain ⟨fs', gs', hfs, hgs, heq⟩ :=
    (subtree_influence hitem).1.mpr ⟨lasts_of_validate hv, lasts_of_validate hw⟩
  obtain rfl : fs = fs' := Except.ok.inj (hv.symm.trans hfs)
  obtain rfl : gs = gs' := Except.ok.inj (hw.symm.trans hgs)
  exact ⟨hitem, hv, hw, heq⟩

/-- An integer that cannot be written in the place of one that can takes the finding on the other
member away. -/
theorem unwritable_spreads :
    let v : Value := .object
      [("a", .number .integer (.int 1)), ("b", .number .integer (.int 1))]
    let w : Value := .object
      [("a", .number .integer (.int (Nat.pow 10 digitLimit))), ("b", .number .integer (.int 1))]
    let s : Schema := { properties := [("a", {}), ("b", { type := some "string" })] }
    let e : Setup := ⟨.toml, 32⟩
    let steps : List Step := [.key "a"]
    Value.SameOutside steps v w ∧
      validate e v s "$" = .ok [.invalidType "$.b" "string" "integer" false] ∧
      ¬∃ fs gs, validate e v s "$" = .ok fs ∧ validate e w s "$" = .ok gs ∧
        uninfluenced "$" steps fs = uninfluenced "$" steps gs := by
  refine ⟨.member [] _ (.here _ _), by decide +kernel, ?_⟩
  rintro ⟨fs, gs, -, h, -⟩
  have hn := Number.isWritable_natCast_eq_false (Nat.le_refl (Nat.pow 10 digitLimit))
  exact not_lasts_first hn (lasts_of_validate h)

end Conform.Validator
