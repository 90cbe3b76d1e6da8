import Conform.Proofs.Validator.Walk

/-!
The walk and the checked pairs. What the walk says at a checked pair stands together, without a
gap, in what it says of the whole. Each of its notices is a violation of a checked pair, or the
reason why one breaks off; and each violation is among them, unless something breaks off.
-/

namespace Conform.Validator

variable {e : Setup} {v x : Value} {s t u : Schema} {p q : Site} {f : Finding} {i : Interruption}
  {n : Notice}

lemma Checked.trans {y : Value} {w : Schema} {r : Site} (h : Checked e v s p x t q)
    (h' : Checked e x t q y w r) : Checked e v s p y w r := by
  induction h' with
  | root => exact h
  | member _ he hm hu ih => exact ih.member he hm hu
  | item _ he hi hu ih => exact ih.item he hi hu

lemma checked_member {ms : List (String × Value)} {key : String}
    (he : Entered e (.object ms) s p) (hm : (key, x) ∈ ms) (hu : s.property? key = some u) :
    Checked e (.object ms) s p x u (p.member key) :=
  Checked.root.member he hm hu

lemma checked_item {vs : List Value} {j : Nat} (he : Entered e (.array vs) s p)
    (hx : vs[j]? = some x) (hu : s.items = some u) :
    Checked e (.array vs) s p x u (p.item j) :=
  Checked.root.item he hx hu

lemma inside_infix_around {inside : Unit → List Notice} (h : Entered e v s p) :
    inside () <:+: around e v s p inside := by
  rw [around, if_pos (enters_iff.mpr h)]
  exact ((List.prefix_append _ _).isInfix).trans (List.suffix_append _ _).isInfix

lemma walk_infix_walkMembers {ms : List (String × Value)} {key : String} (hm : (key, x) ∈ ms)
    (hu : s.property? key = some u) : walk e x u (p.member key) <:+: walkMembers e ms s p := by
  induction ms with
  | nil => cases hm
  | cons m r ih =>
    obtain ⟨k, y⟩ := m
    rw [walkMembers]
    rcases List.mem_cons.mp hm with hm | hm
    · obtain ⟨rfl, rfl⟩ := Prod.mk.inj hm
      rw [hu]
      exact (List.prefix_append _ _).isInfix
    · exact (ih hm).trans (List.suffix_append _ _).isInfix

lemma walk_infix_walkItems {vs : List Value} {j k : Nat} (hx : vs[j]? = some x) :
    walk e x u (p.item (k + j)) <:+: walkItems e vs u p k := by
  induction vs generalizing j k with
  | nil => simp at hx
  | cons y r ih =>
    rw [walkItems]
    cases j with
    | zero =>
      cases hx
      exact (List.prefix_append _ _).isInfix
    | succ j =>
      have h := ih (j := j) (k := k + 1) (by simpa using hx)
      rw [show k + 1 + j = k + (j + 1) by omega] at h
      exact h.trans (List.suffix_append _ _).isInfix

/-- The notices on a checked pair stand together in those of the whole. -/
theorem walk_infix_of_checked (h : Checked e v s p x t q) : walk e x t q <:+: walk e v s p := by
  induction h with
  | root => exact List.infix_rfl
  | @member ms t u q key x _ he hm hu ih =>
    have h1 : walk e x u (q.member key) <:+: walkMembers e ms t q :=
      walk_infix_walkMembers hm hu
    have h2 : walkMembers e ms t q <:+: walk e (.object ms) t q := by
      rw [walk]
      refine List.IsInfix.trans ?_ (inside_infix_around he)
      exact (List.suffix_append _ _).isInfix
    exact (h1.trans h2).trans ih
  | @item vs t u q j x _ he hx hu ih =>
    have h1 : walk e x u (q.item j) <:+: walkItems e vs u q 0 := by
      simpa using walk_infix_walkItems (k := 0) hx
    have h2 : walkItems e vs u q 0 <:+: walk e (.array vs) t q := by
      rw [walk, hu]
      refine List.IsInfix.trans ?_ (inside_infix_around he)
      exact (List.suffix_append _ _).isInfix
    exact (h1.trans h2).trans ih

/-! ### Nothing but violations -/

/-- What a notice on a pair says of it. -/
def Explains (e : Setup) (v : Value) (s : Schema) (p : Site) : Notice → Prop
  | .ok f => Violation e v s p f
  | .error i => BreaksOff e v s p i

lemma explains_of_mem_around {inside : Unit → List Notice} (h : n ∈ around e v s p inside)
    (hin : Entered e v s p → n ∈ inside () →
      ∃ x t q, Checked e v s p x t q ∧ Explains e x t q n)
    (henum : ∀ f, f ∈ enumFindings s p.path v → ContentViolation e.dialect s p.path v f) :
    ∃ x t q, Checked e v s p x t q ∧ Explains e x t q n := by
  cases n with
  | ok f =>
    rcases ok_mem_around.mp h with hv | ⟨he, hi | hf⟩
    · exact ⟨v, s, p, .root, Or.inl hv⟩
    · exact hin he hi
    · exact ⟨v, s, p, .root, Or.inr ⟨he, henum f hf⟩⟩
  | error i =>
    obtain ⟨he, hi⟩ := error_mem_around.mp h
    exact hin he hi

lemma explains_of_mem_ofFindings {fs : List Finding} (h : n ∈ Notice.ofFindings fs)
    (he : Entered e v s p) (hf : ∀ f ∈ fs, ContentViolation e.dialect s p.path v f) :
    ∃ x t q, Checked e v s p x t q ∧ Explains e x t q n := by
  cases n with
  | ok f => exact ⟨v, s, p, .root, Or.inr ⟨he, hf f (Notice.ok_mem_ofFindings.mp h)⟩⟩
  | error i => exact absurd h Notice.error_notMem_ofFindings

lemma explains_of_mem_textNotices {text : String} (ht : v.text? = some text)
    (he : Entered e v s p)
    (h : n ∈ textNotices s p.path text (v.display Value.displayLimit)) : Explains e v s p n := by
  cases n with
  | ok f => exact Or.inr ⟨he, (contentViolation_text ht).mpr (Or.inl h)⟩
  | error i =>
    obtain ⟨source, hs, hc⟩ := error_mem_textNotices.mp h
    exact .pattern he ht hs hc

/-- **Soundness**: a notice of the walk is a violation of a checked pair, or tells why one breaks
off. -/
theorem explains_of_mem_walk (h : n ∈ walk e v s p) :
    ∃ x t q, Checked e v s p x t q ∧ Explains e x t q n := by
  induction v using Value.induction generalizing s p with
  | object ms ih =>
    rw [walk] at h
    refine explains_of_mem_around h (fun he hi => ?_)
      (fun f hf => contentViolation_object.mpr (Or.inr (Or.inr hf)))
    rcases List.mem_append.mp hi with hmiss | hwalk
    · exact explains_of_mem_ofFindings hmiss he fun f hf =>
        contentViolation_object.mpr (Or.inl hf)
    · obtain ⟨key, y, hm, ⟨u, hu, hy⟩ | ⟨hu, hy⟩⟩ := mem_walkMembers.mp hwalk
      · obtain ⟨x, t, q, hc, hx⟩ := ih (key, y) hm hy
        exact ⟨x, t, q, (checked_member he hm hu).trans hc, hx⟩
      · have hk : key ∈ Members.keys ms := List.mem_map_of_mem hm
        exact explains_of_mem_ofFindings hy he fun f hf =>
          contentViolation_object.mpr (Or.inr (Or.inl ⟨key, hk, hu, hf⟩))
  | array vs ih =>
    rw [walk] at h
    refine explains_of_mem_around h (fun he hi => ?_)
      (fun f hf => contentViolation_array.mpr (Or.inr hf))
    rcases List.mem_append.mp hi with hsize | hwalk
    · exact explains_of_mem_ofFindings hsize he fun f hf => contentViolation_array.mpr (Or.inl hf)
    · split at hwalk
      · next u hu =>
        obtain ⟨j, y, hj, hy⟩ := mem_walkItems.mp hwalk
        rw [Nat.zero_add] at hy
        obtain ⟨x, t, q, hc, hx⟩ := ih y (List.mem_of_getElem? hj) hy
        exact ⟨x, t, q, (checked_item he hj hu).trans hc, hx⟩
      · cases hwalk
  | string text =>
    rw [walk] at h
    exact explains_of_mem_around h
      (fun he hi => ⟨_, _, _, .root, explains_of_mem_textNotices rfl he hi⟩)
      (fun f hf => (contentViolation_text rfl).mpr (Or.inr hf))
  | temporal k text =>
    rw [walk] at h
    exact explains_of_mem_around h
      (fun he hi => ⟨_, _, _, .root, explains_of_mem_textNotices rfl he hi⟩)
      (fun f hf => (contentViolation_text rfl).mpr (Or.inr hf))
  | number k m =>
    rw [walk] at h
    refine explains_of_mem_around h (fun he hi => ⟨_, _, _, .root, ?_⟩)
      (fun f hf => contentViolation_number.mpr (Or.inr hf))
    cases n with
    | ok f =>
      have hf := (ok_mem_numberNotices.mp hi).2
      exact Or.inr ⟨he, contentViolation_number.mpr (Or.inl hf)⟩
    | error i =>
      obtain ⟨hw, rfl⟩ := error_mem_numberNotices.mp hi
      exact .number he rfl hw
  | boolean b =>
    rw [walk] at h
    exact explains_of_mem_around h (fun _ hi => by cases hi)
      (fun f hf => contentViolation_boolean.mpr hf)
  | null =>
    rw [walk] at h
    cases n with
    | ok f =>
      rcases ok_mem_around.mp h with hv | ⟨he, -⟩
      · exact ⟨_, _, _, .root, Or.inl hv⟩
      · exact absurd rfl he.present
    | error i => exact absurd rfl (error_mem_around.mp h).1.present

/-! ### No violation left out -/

def Unwritable (e : Setup) (v : Value) (s : Schema) (p : Site) : Prop :=
  Entered e v s p ∧ ∃ k m, v = .number k m ∧ m.isWritable = false

lemma error_mem_walk_of_breaksOff (h : BreaksOff e v s p i) : .error i ∈ walk e v s p := by
  cases h with
  | @pattern text source _ he ht hs hc =>
    have hn : .error i ∈ textNotices s p.path text (v.display Value.displayLimit) :=
      error_mem_textNotices.mpr ⟨source, hs, hc⟩
    cases v with
    | string | temporal =>
      cases ht
      rw [walk]
      exact error_mem_around.mpr ⟨he, hn⟩
    | object | array | number | boolean | null => cases ht
  | number he hv hw =>
    subst hv
    rw [walk]
    exact error_mem_around.mpr ⟨he, error_mem_numberNotices.mpr ⟨hw, rfl⟩⟩

lemma ok_mem_walk_of_entryViolation (h : EntryViolation e v s p f) : .ok f ∈ walk e v s p := by
  cases v <;> (rw [walk]; exact ok_mem_around.mpr (Or.inl h))

lemma ok_mem_walk_of_contentViolation (he : Entered e v s p)
    (h : ContentViolation e.dialect s p.path v f) (hw : ¬Unwritable e v s p) :
    .ok f ∈ walk e v s p := by
  cases v with
  | object ms =>
    rw [walk]
    refine ok_mem_around.mpr (Or.inr ⟨he, ?_⟩)
    rcases contentViolation_object.mp h with hf | ⟨key, hk, hu, hf⟩ | hf
    · exact Or.inl (List.mem_append_left _ (Notice.ok_mem_ofFindings.mpr hf))
    · obtain ⟨⟨k, y⟩, hm, rfl⟩ := List.mem_map.mp hk
      exact Or.inl (List.mem_append_right _ (mem_walkMembers.mpr
        ⟨k, y, hm, Or.inr ⟨hu, Notice.ok_mem_ofFindings.mpr hf⟩⟩))
    · exact Or.inr hf
  | array vs =>
    rw [walk]
    refine ok_mem_around.mpr (Or.inr ⟨he, ?_⟩)
    rcases contentViolation_array.mp h with hf | hf
    · exact Or.inl (List.mem_append_left _ (Notice.ok_mem_ofFindings.mpr hf))
    · exact Or.inr hf
  | string | temporal =>
    rw [walk]
    exact ok_mem_around.mpr (Or.inr ⟨he, (contentViolation_text rfl).mp h⟩)
  | number k m =>
    have hm : m.isWritable = true := by
      by_contra hm
      exact hw ⟨he, k, m, rfl, by simpa using hm⟩
    rw [walk]
    refine ok_mem_around.mpr (Or.inr ⟨he, ?_⟩)
    rcases contentViolation_number.mp h with hf | hf
    · exact Or.inl (ok_mem_numberNotices.mpr ⟨hm, hf⟩)
    · exact Or.inr hf
  | boolean b =>
    rw [walk]
    exact ok_mem_around.mpr (Or.inr ⟨he, Or.inr (contentViolation_boolean.mp h)⟩)
  | null => exact absurd rfl he.present

/-- **Completeness**: what breaks a checked pair off is among the notices of the walk. -/
theorem error_mem_walk_of_checked (hc : Checked e v s p x t q) (h : BreaksOff e x t q i) :
    .error i ∈ walk e v s p :=
  (walk_infix_of_checked hc).subset (error_mem_walk_of_breaksOff h)

/-- **Completeness**: a violation of a checked pair is among the notices of the walk, unless the
pair has a number that cannot be written. -/
theorem ok_mem_walk_of_checked (hc : Checked e v s p x t q) (h : Violation e x t q f)
    (hw : ¬Unwritable e x t q) : .ok f ∈ walk e v s p := by
  refine (walk_infix_of_checked hc).subset ?_
  rcases h with h | ⟨he, h⟩
  · exact ok_mem_walk_of_entryViolation h
  · exact ok_mem_walk_of_contentViolation he h hw

end Conform.Validator
