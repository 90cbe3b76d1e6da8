import Conform.Proofs.Validator.Descent
import Conform.Proofs.Validator.Distinct

/-!
What is found at a position or below it. A node says its own at its path or at members that it
lacks, and what is in it is spoken of beyond the steps to it; so of all that is found in the whole,
what is located at a checked pair or below it is what the walk of that pair finds, in its order. A
position that is not checked has at most a finding of its parent on itself.
-/

namespace Conform

namespace Value

variable {v x : Value} {c : Step × Value} {key : String}

lemma mem_keys_of_mem_children (h : (.key key, x) ∈ v.children) :
    key ∈ Members.keys v.members := by
  cases v with
  | object ms =>
    obtain ⟨m, hm, he⟩ := List.mem_map.mp h
    cases he
    exact List.mem_map_of_mem hm
  | array vs =>
    obtain ⟨i, hi, he⟩ := List.mem_mapIdx.mp h
    cases he
  | string | number | boolean | null | temporal => cases h

lemma KeysDistinct.child (h : v.KeysDistinct) (hc : c ∈ v.children) : c.2.KeysDistinct := by
  cases h with
  | object _ each =>
    obtain ⟨m, hm, rfl⟩ := List.mem_map.mp hc
    exact each m hm
  | array each =>
    obtain ⟨i, hi, rfl⟩ := List.mem_mapIdx.mp hc
    exact each _ (List.getElem_mem hi)
  | string | number | boolean | null | temporal => cases hc

/-- All steps down from a node differ. -/
lemma KeysDistinct.steps_ne (h : v.KeysDistinct) :
    v.children.Pairwise fun c d => c.1 ≠ d.1 := by
  cases h with
  | object nodup _ =>
    refine List.pairwise_map.mpr ((List.pairwise_map.mp nodup).imp fun hne he => hne ?_)
    exact Step.key.inj he
  | array _ =>
    refine List.pairwise_iff_getElem.mpr fun i j hi hj hij he => ?_
    simp only [children, List.getElem_mapIdx] at he
    have := Step.index.inj he
    omega
  | string | number | boolean | null | temporal => exact List.Pairwise.nil

end Value

namespace Validator

open Notice

variable {d : Dialect} {e : Setup} {v x y : Value} {s t u : Schema} {p q : Site} {f : Finding}
  {fs gs : List Finding} {path : String} {a : Step} {c : Step × Value} {steps : List Step}

lemma Checked.down (h : Checked e v s p x t q) (he : Entered e x t q) (hc : (a, y) ∈ x.children)
    (hu : t.under? a = some u) : Checked e v s p y u (q.down a) := by
  cases x with
  | object ms =>
    obtain ⟨⟨key, z⟩, hm, hz⟩ := List.mem_map.mp hc
    cases hz
    exact h.member he hm hu
  | array vs =>
    obtain ⟨i, hi, hz⟩ := List.mem_mapIdx.mp hc
    cases hz
    exact h.item he (List.getElem?_eq_getElem hi) hu
  | string | number | boolean | null | temporal => cases hc

/-- What holds of the root pair, and one step down from each pair that is entered, holds of every
checked pair. -/
lemma Checked.steps_induction {motive : Value → Schema → Site → Prop} (root : motive v s p)
    (down : ∀ {x : Value} {t : Schema} {q : Site} {a : Step} {y : Value} {u : Schema},
      Checked e v s p x t q → Entered e x t q → (a, y) ∈ x.children → t.under? a = some u →
      motive x t q → motive y u (q.down a))
    (h : Checked e v s p x t q) : motive x t q := by
  induction h with
  | root => exact root
  | member hx he hm hu ih => exact down hx he (List.mem_map_of_mem hm) hu ih
  | item hx he hi hu ih =>
    obtain ⟨hlt, rfl⟩ := List.getElem?_eq_some_iff.mp hi
    exact down hx he (List.mem_mapIdx.mpr ⟨_, hlt, rfl⟩) hu ih

lemma Checked.keysDistinct (h : Checked e v s p x t q) (hv : v.KeysDistinct) : x.KeysDistinct :=
  h.steps_induction (motive := fun x _ _ => x.KeysDistinct) hv
    fun _ _ hc _ hx => hx.child hc

/-! ### Where a node says its own -/

lemma AtOrBelow.of_foldl (h : AtOrBelow (steps.foldl Path.down path) f) : AtOrBelow path f := by
  obtain ⟨more, hf⟩ := h
  exact ⟨steps ++ more, by rw [List.foldl_append, hf]⟩

def OnMissing (v : Value) (path : String) (f : Finding) : Prop :=
  ∃ name, name ∉ Members.keys v.members ∧ f.path = Path.child path name

lemma path_missingFinding {name : String} :
    (missingFinding d s path name).path = Path.child path name := by
  by_cases h : MissesTable d s name
  · rw [missingFinding_of_missesTable h]
    rfl
  · rw [missingFinding_of_not_missesTable h]
    rfl

lemma located_of_mem_contentNotices (h : .ok f ∈ contentNotices d s path v) :
    f.path = path ∨ OnMissing v path f := by
  cases v with
  | object ms =>
    obtain ⟨name, -, hname, rfl⟩ := mem_missingFindings.mp (ok_mem_ofFindings.mp h)
    exact Or.inr ⟨name, hname, path_missingFinding⟩
  | array vs => exact Or.inl (speaks_sizeFindings.at_path f (ok_mem_ofFindings.mp h))
  | string | temporal => exact Or.inl (speaks_textNotices.at_path f (mem_findings.mpr h))
  | number => exact Or.inl (speaks_numberNotices.at_path f (mem_findings.mpr h))
  | boolean | null => cases h

lemma OnMissing.not_beyond (h : OnMissing v path f) (hc : (a, x) ∈ v.children) :
    ¬Beyond path a f := by
  obtain ⟨name, hname, hf⟩ := h
  intro hb
  have ha : a = .key name := hb.step_eq (atOrBelow_of_eq hf) rfl
  rw [ha] at hc
  exact hname (Value.mem_keys_of_mem_children hc)

lemma not_beyond_of_mem_contentNotices (h : .ok f ∈ contentNotices d s path v)
    (hc : (a, x) ∈ v.children) : ¬Beyond path a f := by
  rcases located_of_mem_contentNotices h with hf | hf
  · exact fun hb => hb.path_ne hf
  · exact hf.not_beyond hc

lemma path_eq_of_mem_entry (h : f ∈ (entry e v s p).findings) : f.path = p.path :=
  (mem_entry_findings.mp h).path_eq

lemma path_eq_of_mem_malformedFindings (h : f ∈ malformedFindings s path) : f.path = path := by
  obtain ⟨k, -, rfl⟩ := mem_malformedFindings.mp h
  rfl

lemma path_eq_of_mem_enumFindings (h : f ∈ enumFindings s path v) : f.path = path :=
  speaks_enumFindings.at_path f h

lemma path_eq_of_mem_strayFindings (h : f ∈ strayFindings s path a) :
    f.path = Path.down path a := by
  cases a with
  | key k =>
    obtain ⟨-, rfl⟩ := mem_undeclaredFindings.mp h
    rfl
  | index i => cases h

/-- A step down without a schema leads to no finding beyond it. -/
lemma untold_of_mem_strayFindings (h : f ∈ strayFindings s path a)
    (hb : AtOrBelow (steps.foldl Path.down (Path.down path a)) f) :
    f.path = steps.foldl Path.down (Path.down path a) ∧ f.kind = .other := by
  have hf := path_eq_of_mem_strayFindings h
  constructor
  · cases steps with
    | nil => exact hf
    | cons b steps => exact absurd hf (Beyond.path_ne (AtOrBelow.of_foldl hb))
  · cases a with
    | key k =>
      obtain ⟨-, rfl⟩ := mem_undeclaredFindings.mp h
      rfl
    | index i => cases h

lemma beyond_of_mem_childNotices (h : .ok f ∈ childNotices e s p c) : Beyond p.path c.1 f := by
  unfold childNotices at h
  split at h
  · exact atOrBelow_of_mem_walk h
  · exact atOrBelow_of_eq (path_eq_of_mem_strayFindings (ok_mem_ofFindings.mp h))

/-! ### What is found below a path -/

noncomputable def foundBelow (path : String) : List Finding → List Finding :=
  Finding.select (AtOrBelow path)

lemma mem_foundBelow : f ∈ foundBelow path fs ↔ f ∈ fs ∧ AtOrBelow path f := Finding.mem_select

@[simp] lemma foundBelow_append :
    foundBelow path (fs ++ gs) = foundBelow path fs ++ foundBelow path gs :=
  Finding.select_append

lemma foundBelow_eq_self (h : ∀ f ∈ fs, AtOrBelow path f) : foundBelow path fs = fs :=
  Finding.select_eq_self h

lemma foundBelow_eq_nil (h : ∀ f ∈ fs, ¬AtOrBelow path f) : foundBelow path fs = [] :=
  Finding.select_eq_nil h

/-- What is below some steps down is below the path. -/
lemma foundBelow_foldl (path : String) (steps : List Step) (fs : List Finding) :
    foundBelow (steps.foldl Path.down path) (foundBelow path fs) =
      foundBelow (steps.foldl Path.down path) fs := by
  unfold foundBelow Finding.select
  rw [List.filter_filter]
  refine List.filter_congr fun f _ => ?_
  by_cases h : AtOrBelow (steps.foldl Path.down path) f
  · simp [h, h.of_foldl]
  · simp [h]

@[simp] lemma findings_flatMap {α : Type} (l : List α) (g : α → List Notice) :
    findings (l.flatMap g) = l.flatMap fun c => findings (g c) :=
  List.filterMap_flatMap

/-- Of all that is in a node, only one child has findings beyond the step to it. -/
lemma foundBelow_children (hv : v.KeysDistinct) (hc : (a, x) ∈ v.children) :
    foundBelow (Path.down p.path a) (findings (v.children.flatMap (childNotices e s p))) =
      findings (childNotices e s p (a, x)) := by
  obtain ⟨l, r, hlr⟩ := List.append_of_mem hc
  have hne := hv.steps_ne
  rw [hlr, List.pairwise_append, List.pairwise_cons] at hne
  obtain ⟨-, ⟨hr, -⟩, hl⟩ := hne
  have others : ∀ cs : List (Step × Value), (∀ c ∈ cs, c.1 ≠ a) →
      foundBelow (Path.down p.path a) (findings (cs.flatMap (childNotices e s p))) = [] := by
    refine fun cs hcs => foundBelow_eq_nil fun f hf hb => ?_
    obtain ⟨c, hmem, hn⟩ := List.mem_flatMap.mp (mem_findings.mp hf)
    exact hcs c hmem ((beyond_of_mem_childNotices hn).step_eq hb rfl)
  rw [hlr, List.flatMap_append, List.flatMap_cons, findings_append, findings_append,
    foundBelow_append, foundBelow_append, others l fun c hm => hl c hm _ List.mem_cons_self,
    others r fun c hm => (hr c hm).symm, List.nil_append, List.append_nil]
  exact foundBelow_eq_self fun f hf => beyond_of_mem_childNotices (mem_findings.mp hf)

/-- What a node that is entered has beyond a step is what the child there has. -/
lemma foundBelow_of_entered (hv : v.KeysDistinct) (he : Entered e v s p)
    (hc : (a, x) ∈ v.children) :
    foundBelow (Path.down p.path a) (findings (walk e v s p)) =
      findings (childNotices e s p (a, x)) := by
  have hmal : foundBelow (Path.down p.path a) (malformedFindings s p.path) = [] :=
    foundBelow_eq_nil fun f hf hb => Beyond.path_ne hb (path_eq_of_mem_malformedFindings hf)
  have hcontent : foundBelow (Path.down p.path a)
      (findings (contentNotices e.dialect s p.path v)) = [] :=
    foundBelow_eq_nil fun f hf => not_beyond_of_mem_contentNotices (mem_findings.mp hf) hc
  have henum : foundBelow (Path.down p.path a) (enumFindings s p.path v) = [] :=
    foundBelow_eq_nil fun f hf hb => Beyond.path_ne hb (path_eq_of_mem_enumFindings hf)
  rw [walk_of_entered he]
  simp only [findings_append, findings_ofFindings, foundBelow_append, hmal, hcontent, henum,
    List.nil_append, List.append_nil]
  exact foundBelow_children hv hc

/-- A node that is not entered has nothing beyond any step. -/
lemma foundBelow_of_not_entered (he : ¬Entered e v s p) :
    foundBelow (Path.down p.path a) (findings (walk e v s p)) = [] := by
  rw [walk_of_not_entered he, findings_ofFindings]
  exact foundBelow_eq_nil fun f hf hb => Beyond.path_ne hb (path_eq_of_mem_entry hf)

/-- What is found at a checked pair or below it is what the walk of the pair finds. -/
theorem foundBelow_of_checked (hv : v.KeysDistinct) (h : Checked e v s p x t q) :
    foundBelow q.path (findings (walk e v s p)) = findings (walk e x t q) := by
  refine h.steps_induction
    (motive := fun x t q => foundBelow q.path (findings (walk e v s p)) = findings (walk e x t q))
    ?_ ?_
  · exact foundBelow_eq_self fun f hf => atOrBelow_of_mem_walk (mem_findings.mp hf)
  · intro x t q a y u hx he hc hu ih
    calc foundBelow (Path.down q.path a) (findings (walk e v s p))
        = foundBelow (Path.down q.path a) (findings (walk e x t q)) := by
          rw [← ih]
          exact (foundBelow_foldl q.path [a] _).symm
      _ = findings (childNotices e t q (a, y)) :=
          foundBelow_of_entered (hx.keysDistinct hv) he hc
      _ = findings (walk e y u (q.down a)) := by rw [childNotices_of_some hu]

/-! ### Positions -/

/-- A position is that of a checked pair, or all that is found there or below is a finding of the
parent on the node itself. -/
theorem checked_or_untold (hv : v.KeysDistinct) (hx : v.at? steps = some x) :
    (∃ t q, Checked e v s p x t q ∧ q.path = steps.foldl Path.down p.path) ∨
      ∀ f ∈ foundBelow (steps.foldl Path.down p.path) (findings (walk e v s p)),
        f.path = steps.foldl Path.down p.path ∧ f.kind = .other := by
  induction steps generalizing v s p with
  | nil =>
    cases hx
    exact Or.inl ⟨s, p, .root, rfl⟩
  | cons a steps ih =>
    obtain ⟨y, hc, hx⟩ := Value.at?_cons_eq_some hx
    rw [List.foldl_cons, ← foundBelow_foldl (Path.down p.path a)]
    by_cases he : Entered e v s p
    · rw [foundBelow_of_entered hv he hc]
      cases hu : s.under? a with
      | some t =>
        rw [childNotices_of_some hu]
        rcases ih (s := t) (p := p.down a) (hv.child hc) hx with ⟨u, q, hq, hpath⟩ | h
        · exact Or.inl ⟨u, q, (Checked.root.down he hc hu).trans hq, hpath⟩
        · exact Or.inr h
      | none =>
        rw [childNotices_of_none hu, findings_ofFindings]
        refine Or.inr fun f hf => ?_
        obtain ⟨hf, hb⟩ := mem_foundBelow.mp hf
        exact untold_of_mem_strayFindings hf hb
    · rw [foundBelow_of_not_entered he]
      exact Or.inr (List.forall_mem_nil _)

end Validator

end Conform
