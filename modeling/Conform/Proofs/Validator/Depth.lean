import Conform.Proofs.Validator.Below

/-!
How deep a walk goes. A node that is there, under a schema that is one, but deeper than the limit,
has one finding that says so and nothing else: there the walk is cut off. With more room, under a
greater limit or from a site that is less deep, a walk says the same, except where it was cut off:
there it goes on, and what it says stands in the place of that finding. So a walk that is cut off
nowhere says the same with more room.
-/

namespace Conform.Validator

open Notice

variable {d : Dialect} {e : Setup} {m m' : Int} {k k' : Nat} {b : Bool} {path : String}
  {v x : Value} {s t : Schema} {p q : Site} {f : Finding} {ns ms ns' ms' : List Notice}
  {i : Interruption} {C : Finding → Prop}

def depthFinding (m : Int) (path : String) : Finding :=
  .other path ("Maximum nesting depth of " ++ toString m ++ " exceeded")

def OnDepth (m : Int) (f : Finding) : Prop :=
  f = .other f.path ("Maximum nesting depth of " ++ toString m ++ " exceeded")

/-- The depth of a node is all that keeps it from being entered or refused. -/
structure TooDeep (e : Setup) (v : Value) (s : Schema) (p : Site) : Prop where
  present : v ≠ .null
  isSchema : s.shapeError = none
  outOfReach : e.maxDepth < (p.depth : Int)

/-- A walk is cut off at a site: what is checked there lies too deep. -/
def CutAt (e : Setup) (v : Value) (s : Schema) (p q : Site) : Prop :=
  ∃ x t, Checked e v s p x t q ∧ TooDeep e x t q

def OnCut (e : Setup) (v : Value) (s : Schema) (p : Site) (f : Finding) : Prop :=
  ∃ q, CutAt e v s p q ∧ f = depthFinding e.maxDepth q.path

lemma TooDeep.not_entered (h : TooDeep e v s p) : ¬Entered e v s p := by
  intro he
  have hreach := he.inReach
  have hout := h.outOfReach
  omega

lemma TooDeep.walk_eq (h : TooDeep e v s p) :
    walk e v s p = ofFindings [depthFinding e.maxDepth p.path] := by
  have hv : v.kind ≠ .null := fun hk => h.present (Value.kind_eq_null_iff.mp hk)
  rw [walk_of_not_entered h.not_entered, entry, if_neg hv, h.isSchema]
  simp only [if_pos h.outOfReach, depthFinding]

lemma CutAt.trans (h : Checked e v s p x t q) {r : Site} (hr : CutAt e x t q r) :
    CutAt e v s p r := by
  obtain ⟨y, u, hc, hy⟩ := hr
  exact ⟨y, u, h.trans hc, hy⟩

lemma OnCut.onDepth (h : OnCut e v s p f) : OnDepth e.maxDepth f := by
  obtain ⟨q, -, rfl⟩ := h
  rfl

lemma OnCut.child {a : Step} (he : Entered e v s p) (hc : (a, x) ∈ v.children)
    (hu : s.under? a = some t) (h : OnCut e x t (p.down a) f) : OnCut e v s p f := by
  obtain ⟨q, hq, hf⟩ := h
  exact ⟨q, hq.trans (Checked.root.down he hc hu), hf⟩

/-! ### Findings that make room for others -/

/-- Notices that are the same, but for some findings that have any number of notices in their
place. -/
inductive Uncovered (C : Finding → Prop) : List Notice → List Notice → Prop where
  | nil : Uncovered C [] []
  | same (n : Notice) {ns ms : List Notice} (h : Uncovered C ns ms) : Uncovered C (n :: ns) (n :: ms)
  | inPlace {f : Finding} (hf : C f) (ks : List Notice) {ns ms : List Notice}
      (h : Uncovered C ns ms) : Uncovered C (.ok f :: ns) (ks ++ ms)

namespace Uncovered

lemma refl (C : Finding → Prop) (ns : List Notice) : Uncovered C ns ns := by
  induction ns with
  | nil => exact .nil
  | cons n r ih => exact .same n ih

lemma of_cut (hf : C f) (ks : List Notice) : Uncovered C (ofFindings [f]) ks := by
  have h := Uncovered.inPlace hf ks .nil
  rwa [List.append_nil] at h

lemma append (h : Uncovered C ns ms) (h' : Uncovered C ns' ms') :
    Uncovered C (ns ++ ns') (ms ++ ms') := by
  induction h with
  | nil => exact h'
  | same n _ ih => exact .same n ih
  | inPlace hf ks _ ih =>
    rw [List.append_assoc]
    exact .inPlace hf ks ih

lemma flatMap {α : Type} {l : List α} {g g' : α → List Notice}
    (h : ∀ c ∈ l, Uncovered C (g c) (g' c)) : Uncovered C (l.flatMap g) (l.flatMap g') := by
  induction l with
  | nil => exact .nil
  | cons c r ih =>
    rw [List.flatMap_cons, List.flatMap_cons]
    exact (h c List.mem_cons_self).append (ih fun b hb => h b (List.mem_cons_of_mem c hb))

lemma sublist (h : Uncovered C ns ms) :
    (Finding.select (fun f => ¬C f) (findings ns)).Sublist (findings ms) := by
  induction h with
  | nil => exact List.Sublist.slnil
  | same n _ ih =>
    cases n with
    | ok f =>
      rw [findings_cons_ok, findings_cons_ok, Finding.select, List.filter_cons]
      split
      · exact ih.cons_cons f
      · exact ih.cons f
    | error i => exact ih
  | inPlace hf ks _ ih =>
    rw [findings_cons_ok, Finding.select, List.filter_cons_of_neg (by simpa using hf),
      findings_append]
    exact ih.trans (List.sublist_append_right _ _)

lemma error_mem (h : Uncovered C ns ms) (hi : .error i ∈ ns) : .error i ∈ ms := by
  induction h with
  | nil => exact hi
  | same n _ ih =>
    rcases List.mem_cons.mp hi with rfl | hi
    · exact List.mem_cons_self
    · exact List.mem_cons_of_mem n (ih hi)
  | inPlace _ ks _ ih =>
    rcases List.mem_cons.mp hi with hi | hi
    · cases hi
    · exact List.mem_append_right ks (ih hi)

lemma eq_of_forall_not (h : Uncovered C ns ms) (hns : ∀ f, .ok f ∈ ns → ¬C f) : ns = ms := by
  induction h with
  | nil => rfl
  | same n _ ih => rw [ih fun f hf => hns f (List.mem_cons_of_mem n hf)]
  | inPlace hf => exact absurd hf (hns _ List.mem_cons_self)

end Uncovered

/-! ### Walks with more room -/

/-- With more room, a node that did not lie too deep is dealt with as before. -/
lemma entry_of_room (hroom : m - k ≤ m' - k') (h : ¬TooDeep ⟨d, m⟩ v s ⟨path, k, b⟩) :
    entry ⟨d, m'⟩ v s ⟨path, k', b⟩ = entry ⟨d, m⟩ v s ⟨path, k, b⟩ := by
  by_cases hv : v.kind = .null
  · rw [entry, entry, if_pos hv, if_pos hv]
  cases hs : s.shapeError with
  | some error => simp only [entry, if_neg hv, hs]
  | none =>
    have hreach : ¬m < (k : Int) := fun hout =>
      h ⟨fun hn => hv (Value.kind_eq_null_iff.mpr hn), hs, hout⟩
    have hreach' : ¬m' < (k' : Int) := by omega
    simp only [entry, if_neg hv, hs, if_neg hreach, if_neg hreach']
    rfl

/-- With more room, the notices are those from before, except in the place of what is said where the
walk was cut off. -/
theorem uncovered_walk (hroom : m - k ≤ m' - k')
    (hC : ∀ f, OnCut ⟨d, m⟩ v s ⟨path, k, b⟩ f → C f) :
    Uncovered C (walk ⟨d, m⟩ v s ⟨path, k, b⟩) (walk ⟨d, m'⟩ v s ⟨path, k', b⟩) := by
  induction v using Value.children_induction generalizing s path k k' b with
  | node v ih =>
    by_cases hdeep : TooDeep ⟨d, m⟩ v s ⟨path, k, b⟩
    · rw [hdeep.walk_eq]
      exact .of_cut (hC _ ⟨_, ⟨v, s, .root, hdeep⟩, rfl⟩) _
    rw [walk_eq, walk_eq, around, around, entry_of_room hroom hdeep]
    split
    · next henters =>
      have he : Entered ⟨d, m⟩ v s ⟨path, k, b⟩ := enters_iff.mp henters
      have below : m - (k + 1 : Nat) ≤ m' - (k' + 1 : Nat) := by omega
      have child : ∀ c ∈ v.children, Uncovered C
          (childNotices ⟨d, m⟩ s ⟨path, k, b⟩ c) (childNotices ⟨d, m'⟩ s ⟨path, k', b⟩ c) := by
        rintro ⟨a, x⟩ hc
        cases hu : s.under? a with
        | none =>
          rw [childNotices_of_none hu, childNotices_of_none hu]
          exact .refl C _
        | some t =>
          rw [childNotices_of_some hu, childNotices_of_some hu]
          exact ih (a, x) hc below fun f hf => hC f (hf.child he hc hu)
      have inside := (Uncovered.refl C (contentNotices d s path v)).append (.flatMap child)
      exact (Uncovered.refl C _).append (inside.append (.refl C _))
    · exact .refl C _

theorem walk_of_room (hroom : m - k ≤ m' - k')
    (hno : ∀ f, .ok f ∈ walk ⟨d, m⟩ v s ⟨path, k, b⟩ → ¬OnDepth m f) :
    walk ⟨d, m'⟩ v s ⟨path, k', b⟩ = walk ⟨d, m⟩ v s ⟨path, k, b⟩ := by
  have hwalk : Uncovered (OnDepth m) (walk ⟨d, m⟩ v s ⟨path, k, b⟩)
      (walk ⟨d, m'⟩ v s ⟨path, k', b⟩) := uncovered_walk hroom fun _ => OnCut.onDepth
  exact (hwalk.eq_of_forall_not hno).symm

end Conform.Validator
