import Mathlib.Algebra.GroupWithZero.Nat
import Mathlib.Data.List.Induction
import Mathlib.Tactic.Lemma
import Conform.Outcome

/-!
The tally of an outcome. A tally grows by one finding at a time: the kind of the finding is listed
at the end unless it is listed already, and its number goes up by one. So the kinds stand in the
order in which they first occur, each once, and the numbers are those of the findings.
-/

namespace Conform.Outcome

variable {k l : FindingKind} {n : Nat} {t : List (FindingKind × Nat)} {f : Finding}
  {fs gs : List Finding} {ks : List FindingKind}

/-- The number that a tally has for a kind; it is zero for a kind that is not listed. -/
def numberOf (k : FindingKind) (t : List (FindingKind × Nat)) : Nat := (t.lookup k).getD 0

lemma numberOf_cons : numberOf k ((l, n) :: t) = if k = l then n else numberOf k t := by
  rw [numberOf, List.lookup_cons]
  by_cases h : k = l
  · rw [if_pos h, beq_iff_eq.mpr h]
    rfl
  · rw [if_neg h, beq_eq_false_iff_ne.mpr h]
    rfl

/-- A new kind is listed last, and the others stay where they are. -/
lemma kinds_count : (count k t).map Prod.fst =
    if k ∈ t.map Prod.fst then t.map Prod.fst else t.map Prod.fst ++ [k] := by
  induction t with
  | nil => rfl
  | cons a r ih =>
    obtain ⟨l, n⟩ := a
    rw [count]
    by_cases h : l = k
    · simp [h]
    · rw [if_neg h, List.map_cons, ih]
      have hmem : k ∈ ((l, n) :: r).map Prod.fst ↔ k ∈ r.map Prod.fst := by
        simp [Ne.symm h]
      by_cases hr : k ∈ r.map Prod.fst
      · rw [if_pos hr, if_pos (hmem.mpr hr), List.map_cons]
      · rw [if_neg hr, if_neg (hmem.not.mpr hr), List.map_cons, List.cons_append]

lemma numberOf_count :
    numberOf l (count k t) = numberOf l t + if l = k then 1 else 0 := by
  induction t with
  | nil =>
    rw [count, numberOf_cons]
    split <;> rfl
  | cons a r ih =>
    obtain ⟨m, n⟩ := a
    rw [count]
    by_cases hm : m = k
    · subst hm
      rw [if_pos rfl, numberOf_cons, numberOf_cons]
      split <;> rfl
    · rw [if_neg hm, numberOf_cons, numberOf_cons, ih]
      by_cases hl : l = m
      · have hk : l ≠ k := fun h => hm (hl ▸ h)
        rw [if_pos hl, if_pos hl, if_neg hk]
        rfl
      · rw [if_neg hl, if_neg hl]

lemma sum_count : ((count k t).map Prod.snd).sum = (t.map Prod.snd).sum + 1 := by
  induction t with
  | nil => rfl
  | cons a r ih =>
    obtain ⟨l, n⟩ := a
    rw [count]
    split <;> simp only [List.map_cons, List.sum_cons, *] <;> omega

lemma numberOf_of_mem (hn : (t.map Prod.fst).Nodup) (h : (k, n) ∈ t) : numberOf k t = n := by
  induction t with
  | nil => cases h
  | cons a r ih =>
    obtain ⟨l, m⟩ := a
    obtain ⟨hl, hr⟩ := List.nodup_cons.mp hn
    rw [numberOf_cons]
    rcases List.mem_cons.mp h with heq | hmem
    · cases heq
      exact if_pos rfl
    · have hne : k ≠ l := by
        rintro rfl
        exact hl (List.mem_map.mpr ⟨(k, n), hmem, rfl⟩)
      rw [if_neg hne]
      exact ih hr hmem

/-! ### All findings -/

/-- The place at which a kind first occurs among findings; for one that does not, their number. -/
def firstPlace (fs : List Finding) (k : FindingKind) : Nat := fs.findIdx fun f => f.kind = k

def occurrences (fs : List Finding) (k : FindingKind) : Nat := fs.countP fun f => f.kind = k

lemma firstPlace_append_of_mem (h : ∃ f ∈ fs, f.kind = k) :
    firstPlace (fs ++ gs) k = firstPlace fs k := by
  have hlt : fs.findIdx (fun f => decide (f.kind = k)) < fs.length :=
    List.findIdx_lt_length.mpr (by simpa using h)
  rw [firstPlace, List.findIdx_append, if_pos hlt]
  rfl

lemma firstPlace_lt_length (h : ∃ f ∈ fs, f.kind = k) : firstPlace fs k < fs.length :=
  List.findIdx_lt_length.mpr (by simpa using h)

lemma length_le_firstPlace_append (h : ¬∃ f ∈ fs, f.kind = k) :
    fs.length ≤ firstPlace (fs ++ gs) k := by
  have hlt : ¬fs.findIdx (fun f => decide (f.kind = k)) < fs.length := by
    rw [List.findIdx_lt_length]
    simpa using h
  rw [firstPlace, List.findIdx_append, if_neg hlt]
  exact Nat.le_add_left _ _

/-- The kinds that occur among findings and no others, each once, in the order of their first
places. -/
structure Lists (fs : List Finding) (ks : List FindingKind) : Prop where
  listed : ∀ k, k ∈ ks ↔ ∃ f ∈ fs, f.kind = k
  once : ks.Nodup
  ordered : ks.Pairwise fun k l => firstPlace fs k < firstPlace fs l

lemma Lists.ordered_append (h : Lists fs ks) (gs : List Finding) :
    ks.Pairwise fun k l => firstPlace (fs ++ gs) k < firstPlace (fs ++ gs) l := by
  refine h.ordered.imp_of_mem fun {k l} hk hl hlt => ?_
  rwa [firstPlace_append_of_mem ((h.listed k).mp hk),
    firstPlace_append_of_mem ((h.listed l).mp hl)]

lemma Lists.snoc_of_mem (h : Lists fs ks) (hf : f.kind ∈ ks) : Lists (fs ++ [f]) ks where
  listed k := by
    rw [h.listed k]
    constructor
    · rintro ⟨g, hg, hk⟩
      exact ⟨g, List.mem_append_left _ hg, hk⟩
    · rintro ⟨g, hg, rfl⟩
      rcases List.mem_append.mp hg with hg | hg
      · exact ⟨g, hg, rfl⟩
      · rw [List.mem_singleton.mp hg]
        exact (h.listed _).mp hf
  once := h.once
  ordered := h.ordered_append [f]

lemma Lists.snoc_of_notMem (h : Lists fs ks) (hf : f.kind ∉ ks) :
    Lists (fs ++ [f]) (ks ++ [f.kind]) where
  listed k := by
    rw [List.mem_append, h.listed k]
    constructor
    · rintro (⟨g, hg, hk⟩ | hk)
      · exact ⟨g, List.mem_append_left _ hg, hk⟩
      · exact ⟨f, by simp, (List.mem_singleton.mp hk).symm⟩
    · rintro ⟨g, hg, rfl⟩
      rcases List.mem_append.mp hg with hg | hg
      · exact Or.inl ⟨g, hg, rfl⟩
      · exact Or.inr (by rw [List.mem_singleton.mp hg]; exact List.mem_singleton_self _)
  once := List.nodup_append.mpr ⟨h.once, List.pairwise_singleton _ _, by
    rintro k hk l hl rfl
    exact hf (List.mem_singleton.mp hl ▸ hk)⟩
  ordered := by
    refine List.pairwise_append.mpr
      ⟨h.ordered_append [f], List.pairwise_singleton _ _, fun k hk l hl => ?_⟩
    -- the kinds listed before have a place among the findings before, and the new one has not
    have hocc := (h.listed k).mp hk
    have hnew : ¬∃ g ∈ fs, g.kind = l := by
      rw [← h.listed, List.mem_singleton.mp hl]
      exact hf
    calc firstPlace (fs ++ [f]) k = firstPlace fs k := firstPlace_append_of_mem hocc
      _ < fs.length := firstPlace_lt_length hocc
      _ ≤ firstPlace (fs ++ [f]) l := length_le_firstPlace_append hnew

lemma Lists.count (h : Lists fs (t.map Prod.fst)) :
    Lists (fs ++ [f]) ((Outcome.count f.kind t).map Prod.fst) := by
  rw [kinds_count]
  split
  · next hf => exact h.snoc_of_mem hf
  · next hf => exact h.snoc_of_notMem hf

lemma tally_snoc (fs : List Finding) (f : Finding) :
    tally (fs ++ [f]) = count f.kind (tally fs) :=
  List.foldl_append

lemma lists_tally (fs : List Finding) : Lists fs ((tally fs).map Prod.fst) := by
  induction fs using List.reverseRecOn with
  | nil => exact ⟨by simp [tally], List.nodup_nil, List.Pairwise.nil⟩
  | append_singleton fs f ih =>
    rw [tally_snoc]
    exact ih.count

lemma numberOf_tally (fs : List Finding) (k : FindingKind) :
    numberOf k (tally fs) = occurrences fs k := by
  induction fs using List.reverseRecOn with
  | nil => rfl
  | append_singleton fs f ih =>
    rw [tally_snoc, numberOf_count, ih, occurrences, occurrences, List.countP_append,
      List.countP_singleton]
    simp only [decide_eq_true_eq, eq_comm (a := k)]

lemma sum_tally (fs : List Finding) : ((tally fs).map Prod.snd).sum = fs.length := by
  induction fs using List.reverseRecOn with
  | nil => rfl
  | append_singleton fs f ih =>
    rw [tally_snoc, sum_count, ih, List.length_append, List.length_singleton]

/-- The number that a kind is listed with is that of its findings. -/
lemma eq_occurrences_of_mem_tally (h : (k, n) ∈ tally fs) : n = occurrences fs k := by
  rw [← numberOf_tally, numberOf_of_mem (lists_tally fs).once h]

lemma occurrences_pos_of_mem_tally (h : (k, n) ∈ tally fs) : 0 < occurrences fs k := by
  obtain ⟨f, hf, hk⟩ := ((lists_tally fs).listed k).mp (List.mem_map_of_mem h)
  exact List.countP_pos_iff.mpr ⟨f, hf, decide_eq_true hk⟩

/-- **A faithful tally**: the tally lists the kinds that occur, each once, in the order in which
they first do. Each is listed with the number of its findings, which is not zero, and the numbers
add up to that of all findings. Of findings behind others, the numbers of each kind add up. -/
theorem tally_faithful (fs gs : List Finding) :
    Lists fs ((tally fs).map Prod.fst) ∧
      (∀ k n, (k, n) ∈ tally fs → n = occurrences fs k ∧ 0 < n) ∧
      ((tally fs).map Prod.snd).sum = fs.length ∧
      ∀ k, numberOf k (tally (fs ++ gs)) = numberOf k (tally fs) + numberOf k (tally gs) := by
  refine ⟨lists_tally fs, fun k n h => ?_, sum_tally fs, fun k => ?_⟩
  · have hn := eq_occurrences_of_mem_tally h
    exact ⟨hn, hn ▸ occurrences_pos_of_mem_tally h⟩
  · rw [numberOf_tally, numberOf_tally, numberOf_tally]
    exact List.countP_append

/-- The later of two kinds, which two of the three findings have. -/
theorem tally_faithful_three :
    let fs : List Finding :=
      [.missingProperty "$.id" "id", .other "$" "a", .other "$.b" "c"]
    (FindingKind.other, 2) ∈ tally fs ∧ 2 = occurrences fs .other ∧ 0 < 2 := by
  intro fs
  have hmem : (FindingKind.other, 2) ∈ tally fs := by decide
  exact ⟨hmem, (tally_faithful fs []).2.1 .other 2 hmem⟩

end Conform.Outcome
