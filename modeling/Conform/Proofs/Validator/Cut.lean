import Conform.Proofs.Validator.Depth
import Conform.Proofs.Validator.Findings
import Conform.Proofs.Validator.Malformed

/-!
Where the limit on depth lies. Only the content of entered nodes is walked, so a node that is checked
lies at most one step below the limit, and a walk is cut off exactly there. Whatever is found lies
there or above, and where the walk is cut off nothing else is found.
-/

namespace Conform.Validator

open Notice Schema

variable {d : Dialect} {e : Setup} {m : Int} {v x : Value} {s t : Schema} {p q : Site} {f : Finding}
  {fs : List Finding} {path : String} {j : Json}

/-- Only what is in an entered node is checked below it. -/
lemma Checked.depth_le (h : Checked e v s p x t q) (hp : (p.depth : Int) ≤ e.maxDepth + 1) :
    (q.depth : Int) ≤ e.maxDepth + 1 := by
  refine h.steps_induction (motive := fun _ _ q => (q.depth : Int) ≤ e.maxDepth + 1) hp ?_
  intro x t q a y u _ he _ _ _
  have hreach : (q.depth : Int) ≤ e.maxDepth := he.inReach
  simp only [Site.down, Nat.cast_add, Nat.cast_one]
  omega

lemma Checked.exists_steps_le (h : Checked e v s (Site.ofRoot path) x t q) (hm : 0 ≤ e.maxDepth) :
    ∃ steps : List Step, q.path = steps.foldl Path.down path ∧ q.depth = steps.length ∧
      (steps.length : Int) ≤ e.maxDepth + 1 := by
  obtain ⟨steps, hq, hlength⟩ := h.exists_steps
  have hdepth : q.depth = steps.length := by simpa [Site.ofRoot] using hlength
  have hroot : ((Site.ofRoot path).depth : Int) ≤ e.maxDepth + 1 := by
    simp only [Site.ofRoot, Nat.cast_zero]
    omega
  exact ⟨steps, hq, hdepth, hdepth ▸ h.depth_le hroot⟩

/-- What is found in an entered node itself is found there or one step below. -/
lemma ContentViolation.exists_steps_le (h : ContentViolation d s path v f) :
    ∃ steps : List Step, f.path = steps.foldl Path.down path ∧ steps.length ≤ 1 := by
  cases h with
  | @missingTable _ name | @missingProperty _ name => exact ⟨[.key name], rfl, Nat.le_refl 1⟩
  | @undeclared _ key => exact ⟨[.key key], rfl, Nat.le_refl 1⟩
  | tooFewItems | tooManyItems | tooShort | tooLong | faultyPattern | noMatch | belowMinimum
  | aboveMaximum | notAbove | notBelow | noMultiple | notListed => exact ⟨[], rfl, Nat.zero_le 1⟩

/-- No violation of a checked pair lies more than one step below the limit. -/
lemma Violated.exists_steps_le (h : Violated e v s (Site.ofRoot path) f) (hm : 0 ≤ e.maxDepth) :
    ∃ steps : List Step,
      f.path = steps.foldl Path.down path ∧ (steps.length : Int) ≤ e.maxDepth + 1 := by
  obtain ⟨x, t, q, hc, hf⟩ := h
  obtain ⟨steps, hq, hdepth, hle⟩ := hc.exists_steps_le hm
  rcases hf with hf | ⟨he, hf⟩
  · exact ⟨steps, hf.path_eq.trans hq, hle⟩
  · obtain ⟨more, hmore, hone⟩ := hf.exists_steps_le
    -- an entered node leaves room for one step more
    have hreach := he.inReach
    refine ⟨steps ++ more, ?_, ?_⟩
    · rw [hmore, hq, List.foldl_append]
    · rw [List.length_append, Nat.cast_add]
      omega

/-! ### The words on depth -/

lemma Checked.node (h : Checked e v s p x t q) : s.Node t := by
  induction h with
  | root => exact .self
  | member _ _ _ hu ih => exact ih.property (Members.mem_of_get? hu)
  | item _ _ _ hu ih => exact ih.items hu

lemma not_onDepth_of_opens {words : String} (h : Opens words f)
    (hw : Parted words "Maximum nesting depth of ") : ¬OnDepth m f := by
  intro hf
  rw [hf] at h
  exact not_opens_of_opens h hw depth_opens

lemma ContentViolation.not_onDepth (h : ContentViolation d s path v f) : ¬OnDepth m f := by
  intro hf
  rcases h.opens_of_other (congrArg Finding.kind hf) with ho | ho
  · exact not_onDepth_of_opens ho (by decide +kernel) hf
  · exact not_onDepth_of_opens ho (by decide +kernel) hf

/-- Before a node is entered, only a schema that is none could be told of in the words on depth. -/
lemma EntryViolation.tooDeep_of_onDepth (h : EntryViolation e v s p f) (hf : OnDepth m f)
    (hs : ∀ error, s.shapeError = some error →
      Opens "Schema fragment must be an object, found " (.other p.path error)) :
    TooDeep e v s p ∧ f = depthFinding e.maxDepth p.path := by
  cases h with
  | noSchema _ herror =>
    exact absurd hf (not_onDepth_of_opens (hs _ herror) (by decide +kernel))
  | tooDeep hv hshape hdeep => exact ⟨⟨hv, hshape, hdeep⟩, rfl⟩
  | malformed | unknownType =>
    exact absurd hf (not_onDepth_of_opens ⟨_, String.append_assoc⟩ (by decide +kernel))
  | wrongType =>
    have hk := congrArg Finding.kind hf
    unfold Finding.invalidType at hk
    split at hk <;> cases hk
  | wrongForm => cases congrArg Finding.kind hf

/-- Under a schema that is read, the words on depth are said of nodes that are cut off, and of
nothing else. -/
lemma onCut_of_onDepth (h : Violated e v (ofJson j) p f) (hf : OnDepth m f) :
    OnCut e v (ofJson j) p f := by
  obtain ⟨x, t, q, hc, hx | ⟨-, hx⟩⟩ := h
  · obtain ⟨k, -, rfl⟩ := hc.node.read_of (Q := fun _ => True) (fun _ _ => trivial) trivial
    obtain ⟨hdeep, hfound⟩ := hx.tooDeep_of_onDepth hf fun _ => shapeError_opens
    exact ⟨q, ⟨x, _, hc, hdeep⟩, hfound⟩
  · exact absurd hf hx.not_onDepth

/-! ### The limit -/

lemma CutAt.exists_steps (h : CutAt e v s (Site.ofRoot path) q) (hm : 0 ≤ e.maxDepth) :
    ∃ steps : List Step,
      q.path = steps.foldl Path.down path ∧ (steps.length : Int) = e.maxDepth + 1 := by
  obtain ⟨x, t, hc, hx⟩ := h
  obtain ⟨steps, hq, hdepth, hle⟩ := hc.exists_steps_le hm
  have hout := hx.outOfReach
  exact ⟨steps, hq, by omega⟩

/-- Where the walk is cut off, this is said once, and nothing else there or below. -/
lemma foundBelow_of_cutAt (hv : v.KeysDistinct) (h : validate e v s path = .ok fs)
    (hq : CutAt e v s (Site.ofRoot path) q) :
    foundBelow q.path fs = [depthFinding e.maxDepth q.path] := by
  obtain ⟨x, t, hc, hx⟩ := hq
  have hfs : fs = findings (walk e v s (Site.ofRoot path)) := by
    rw [eq_ofFindings_of_gather h, findings_ofFindings]
  rw [hfs, foundBelow_of_checked hv hc, hx.walk_eq, findings_ofFindings]

/-- **The depth limit** is exact: no finding lies more than one step below it; every node that is
cut off lies one step below it and has the finding that says so, once, and no other there or below;
and under a schema that is read, whatever is said in these words is said of such a node. -/
theorem depthLimit_exact (hm : 0 ≤ m) (hv : v.KeysDistinct)
    (h : validate ⟨d, m⟩ v s path = .ok fs) :
    (∀ f ∈ fs, ∃ steps : List Step,
      f.path = steps.foldl Path.down path ∧ (steps.length : Int) ≤ m + 1) ∧
    (∀ f, OnCut ⟨d, m⟩ v s (Site.ofRoot path) f →
      (∃ steps : List Step, f.path = steps.foldl Path.down path ∧ (steps.length : Int) = m + 1) ∧
      foundBelow f.path fs = [f]) ∧
    ∀ j, s = ofJson j → ∀ f ∈ fs, OnDepth m f → OnCut ⟨d, m⟩ v s (Site.ofRoot path) f := by
  refine ⟨fun f hf => ?_, ?_, ?_⟩
  · exact ((mem_of_validate h).mp hf).exists_steps_le hm
  · rintro f ⟨q, hq, rfl⟩
    exact ⟨hq.exists_steps hm, foundBelow_of_cutAt hv h hq⟩
  · rintro j rfl f hf hdepth
    exact onCut_of_onDepth ((mem_of_validate h).mp hf) hdepth

/-- An item and a member one step below the limit, beside a member that is missing there. -/
theorem depthLimit_exact_one :
    let v : Value := .object
      [("a", .array [.array [.boolean true]]), ("b", .object [("c", .string "x")])]
    let b : Json := .object [("required", .array [.string "z"]),
      ("properties", .object [("c", .object [("type", .string "number")])])]
    let j : Json := .object [("properties", .object
      [("a", .object [("items", .object [("items", .object [])])]), ("b", b)])]
    let fs : List Finding :=
      [.other "$.a[0]" "Maximum nesting depth of 1 exceeded", .missingProperty "$.b.z" "z",
        .other "$.b.c" "Maximum nesting depth of 1 exceeded"]
    (0 : Int) ≤ 1 ∧ v.KeysDistinct ∧ validate ⟨.json, 1⟩ v (ofJson j) "$" = .ok fs ∧
      (∃ steps : List Step, "$.b.z" = steps.foldl Path.down "$" ∧ (steps.length : Int) ≤ 1 + 1) ∧
      (∃ steps : List Step, "$.b.c" = steps.foldl Path.down "$" ∧ (steps.length : Int) = 1 + 1) ∧
      foundBelow "$.b.c" fs = [.other "$.b.c" "Maximum nesting depth of 1 exceeded"] := by
  intro v b j fs
  have hm : (0 : Int) ≤ 1 := by decide
  have hv : v.KeysDistinct := by simp [v, Members.keys]
  have hrun : validate ⟨.json, 1⟩ v (ofJson j) "$" = .ok fs := by decide +kernel
  obtain ⟨hlocated, hcut, hwords⟩ := depthLimit_exact hm hv hrun
  have hmissing := hlocated (.missingProperty "$.b.z" "z") (by decide)
  obtain ⟨hsteps, hfound⟩ := hcut _ (hwords j rfl (.other "$.b.c" _) (by decide) rfl)
  exact ⟨hm, hv, hrun, hmissing, hsteps, hfound⟩

end Conform.Validator
