import Conform.Proofs.Validator.Below
import Conform.Proofs.Validator.Depth
import Conform.Proofs.Validator.Findings

/-!
Parts of a validation as validations of their own. What is found at a checked pair or below it is
what the walk of the pair finds, and that walk differs in two things from a validation of the pair
alone. It begins deeper, which makes no difference as long as no node lies too deep; and an item
that has the wrong type is told of in words for items.
-/

namespace Conform.Validator

open Notice

variable {d : Dialect} {e : Setup} {v x : Value} {s t : Schema} {p q : Site} {f : Finding}
  {fs : List Finding} {path : String}

namespace Site

/-- The site with what is there taken as a document, not as an item. -/
def alone (p : Site) : Site := { p with inArray := false }

@[simp] lemma alone_path (p : Site) : p.alone.path = p.path := rfl

/-- A finding as it is told at a site: that an item has the wrong type is told in words for items.
-/
def told (p : Site) (f : Finding) : Finding :=
  if p.inArray ∧ f.kind = .invalidType ∧ f.path = p.path then
    { f with
      kind := .invalidArrayItemType, message := "Invalid array item type at '" ++ p.path ++ "'" }
  else f

lemma told_of_ne (h : f.path = p.path → f.kind ≠ .invalidType) : p.told f = f :=
  if_neg fun hf => h hf.2.2 hf.2.1

lemma map_told_of_ne (h : ∀ f ∈ fs, f.path = p.path → f.kind ≠ .invalidType) :
    fs.map p.told = fs :=
  (List.map_congr_left fun f hf => told_of_ne (h f hf)).trans (List.map_id fs)

lemma told_invalidType {expected found : String} :
    p.told (.invalidType p.path expected found false) =
      .invalidType p.path expected found p.inArray := by
  unfold told Finding.invalidType
  cases p.inArray <;> simp

end Site

open Site

lemma entered_alone : Entered e v s p.alone ↔ Entered e v s p :=
  ⟨fun h => ⟨⟨h.present, h.isSchema, h.inReach⟩, h.hasType⟩,
    fun h => ⟨⟨h.present, h.isSchema, h.inReach⟩, h.hasType⟩⟩

lemma kind_ne_of_mem_malformedFindings (h : f ∈ malformedFindings s path) :
    f.kind ≠ .invalidType := by
  obtain ⟨k, -, rfl⟩ := mem_malformedFindings.mp h
  rintro ⟨⟩

lemma typeFindings_told {type : String} :
    typeFindings d type p v = (typeFindings d type p.alone v).map p.told := by
  unfold typeFindings
  split
  · exact (map_told_of_ne (by simp [Finding.other])).symm
  · split
    · refine (map_told_of_ne fun f hf _ => ?_).symm
      obtain ⟨k, text, -, -, -, rfl⟩ := mem_formFindings.mp hf
      rintro ⟨⟩
    · exact congrArg ([·]) told_invalidType.symm

lemma entry_findings_told :
    (entry e v s p).findings = (entry e v s p.alone).findings.map p.told := by
  have other : ∀ message, [Finding.other p.path message] =
      [Finding.other p.path message].map p.told :=
    fun message => (map_told_of_ne (by simp [Finding.other])).symm
  have malformed : malformedFindings s p.path = (malformedFindings s p.path).map p.told :=
    (map_told_of_ne fun f hf _ => kind_ne_of_mem_malformedFindings hf).symm
  by_cases hk : v.kind = .null
  · simp only [entry, if_pos hk, List.map_nil]
  simp only [entry, if_neg hk, alone_path]
  cases s.shapeError with
  | some error => exact other _
  | none =>
    by_cases hd : e.maxDepth < (p.depth : Int)
    · have hd' : e.maxDepth < (p.alone.depth : Int) := hd
      simp only [if_pos hd, if_pos hd']
      exact other _
    have hd' : ¬e.maxDepth < (p.alone.depth : Int) := hd
    simp only [if_neg hd, if_neg hd']
    cases s.type with
    | none => exact malformed
    | some type => simp only [List.map_append, ← malformed, ← typeFindings_told]

/-! ### Inside a node -/

lemma ContentViolation.not_invalidType (h : ContentViolation d s path v f) : f.kind ≠ .invalidType := by
  cases h <;> rintro ⟨⟩

/-- A node that is entered is not said to have the wrong type. -/
lemma kind_ne_of_mem_walk (he : Entered e v s p) (h : .ok f ∈ walk e v s p)
    (hf : f.path = p.path) : f.kind ≠ .invalidType := by
  rw [walk_of_entered he, List.mem_append, List.mem_append, List.mem_append] at h
  rcases h with h | (h | h) | h
  · exact kind_ne_of_mem_malformedFindings (ok_mem_ofFindings.mp h)
  · exact (contentViolation_of_mem_contentNotices h).not_invalidType
  · obtain ⟨c, -, h⟩ := List.mem_flatMap.mp h
    exact absurd hf (beyond_of_mem_childNotices h).path_ne
  · obtain ⟨js, -, -, rfl⟩ := mem_enumFindings.mp (ok_mem_ofFindings.mp h)
    rintro ⟨⟩

/-- The walk at a site tells what the walk of a document there tells, in the words of the site. -/
lemma walk_told : walk e v s p = (walk e v s p.alone).map (Except.map p.told) := by
  by_cases he : Entered e v s p
  · have hsame : walk e v s p.alone = walk e v s p := by
      rw [walk_of_entered he, walk_of_entered (entered_alone.mpr he)]
      rfl
    rw [hsame]
    refine ((List.map_congr_left fun n hn => ?_).trans (List.map_id _)).symm
    cases n with
    | ok f => exact congrArg Except.ok (told_of_ne (kind_ne_of_mem_walk he hn))
    | error i => rfl
  · rw [walk_of_not_entered he, walk_of_not_entered fun h => he (entered_alone.mp h),
      entry_findings_told, ofFindings, ofFindings, List.map_map, List.map_map]
    rfl

/-! ### Validations of parts -/

/-- What a validation finds at a checked pair or below it is what the walk of the pair finds, without
an interruption. -/
lemma gather_walk_of_checked (hv : v.KeysDistinct) (h : validate e v s path = .ok fs)
    (hc : Checked e v s (Site.ofRoot path) x t q) :
    gather (walk e x t q) = .ok (foundBelow q.path fs) := by
  have hfs : walk e v s (Site.ofRoot path) = ofFindings fs := eq_ofFindings_of_gather h
  cases hpart : gather (walk e x t q) with
  | error i =>
    have hi := (walk_infix_of_checked hc).subset (error_mem_of_gather hpart)
    rw [hfs] at hi
    exact absurd hi error_notMem_ofFindings
  | ok gs =>
    have hbelow := foundBelow_of_checked hv hc
    rw [hfs, eq_ofFindings_of_gather hpart, findings_ofFindings, findings_ofFindings] at hbelow
    rw [hbelow]

/-- Begun at depth zero and told in the words of its site, a walk that finds no node too deep is the
same. -/
lemma validate_map_told (hno : ∀ f, .ok f ∈ walk e x t q → ¬OnDepth e.maxDepth f) :
    (validate e x t q.path).map (List.map q.told) = gather (walk e x t q) := by
  have hroom : walk e x t ⟨q.path, 0, q.inArray⟩ = walk e x t q := walk_of_room (by omega) hno
  rw [← hroom, walk_told, gather_map]
  rfl

/-- **Modularity**: if no node lies too deep, what is found at a checked pair or below it is what a
validation of the pair finds, in its order; only that an item has the wrong type is told in other
words. -/
theorem validate_modular (hv : v.KeysDistinct) (h : validate e v s path = .ok fs)
    (hdepth : ∀ f ∈ fs, ¬OnDepth e.maxDepth f) (hc : Checked e v s (Site.ofRoot path) x t q) :
    ∃ gs, validate e x t q.path = .ok gs ∧ foundBelow q.path fs = gs.map q.told := by
  have hwalk : gather (walk e x t q) = .ok (foundBelow q.path fs) :=
    gather_walk_of_checked hv h hc
  have htold : (validate e x t q.path).map (List.map q.told) = .ok (foundBelow q.path fs) := by
    refine (validate_map_told fun f hf => hdepth f ?_).trans hwalk
    rw [eq_ofFindings_of_gather hwalk, ok_mem_ofFindings] at hf
    exact (mem_foundBelow.mp hf).1
  cases hgs : validate e x t q.path with
  | error i =>
    rw [hgs] at htold
    cases htold
  | ok gs =>
    rw [hgs] at htold
    exact ⟨gs, rfl, (Except.ok.inj htold).symm⟩

/-- The first item of an array has the wrong type: a finding on an item in the validation of the
whole, on a document in its own. -/
theorem validate_modular_item :
    let v : Value := .object
      [("a", .array [.object [("b", .null)], .boolean true]), ("c", .string "x")]
    let t : Schema := { type := some "string" }
    let s : Schema :=
      { properties := [("a", { items := some t }), ("c", { type := some "number" })] }
    let fs : List Finding :=
      [.invalidType "$.a[0]" "string" "object" true, .invalidType "$.a[1]" "string" "boolean" true,
        .invalidType "$.c" "number" "string" false]
    let q : Site := ⟨"$.a[0]", 2, true⟩
    v.KeysDistinct ∧ validate ⟨.json, 32⟩ v s "$" = .ok fs ∧ (∀ f ∈ fs, ¬OnDepth 32 f) ∧
      Checked ⟨.json, 32⟩ v s (Site.ofRoot "$") (.object [("b", .null)]) t q ∧
      ∃ gs, validate ⟨.json, 32⟩ (.object [("b", .null)]) t "$.a[0]" = .ok gs ∧
        foundBelow "$.a[0]" fs = gs.map q.told := by
  intro v t s fs q
  have hv : v.KeysDistinct := by simp [v, Members.keys]
  have hrun : validate ⟨.json, 32⟩ v s "$" = .ok fs := by decide +kernel
  have hdepth : ∀ f ∈ fs, ¬OnDepth 32 f := by simp [fs, OnDepth, Finding.other, Finding.invalidType]
  have hq : ((Site.ofRoot "$").member "a").item 0 = q := by decide +kernel
  have hc : Checked ⟨.json, 32⟩ v s (Site.ofRoot "$") (.object [("b", .null)]) t q := by
    rw [← hq]
    refine .item (.member .root ?_ (.head _) rfl) ?_ rfl rfl
    · exact .of_untyped (by simp) rfl rfl (by decide)
    · exact .of_untyped (by simp) rfl rfl (by decide)
  exact ⟨hv, hrun, hdepth, hc, validate_modular hv hrun hdepth hc⟩

end Conform.Validator
