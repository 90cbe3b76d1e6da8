import Mathlib
import Conform.Path
import Conform.Proofs.Json.Quoted

/-!
Paths tell positions apart. A path is its root with the text of each step behind it. The text of a
step begins with a point or a bracket, and it can be seen where it ends: a plain key has neither
mark in it, a quoted key ends with the quote that is not escaped, and an index with the bracket. So
the steps can be read off the path, whatever the keys are.
-/

namespace Conform

namespace Step

def text : Step → List Char
  | .key k =>
    if Path.isPlain k then '.' :: k.toList
    else '[' :: ((Json.quoted .unicode k).toList ++ [']'])
  | .index i => '[' :: ((toString i).toList ++ [']'])

end Step

namespace Path

variable {path : String} {s t : Step} {r r' : List Char}

lemma toList_down (path : String) (s : Step) :
    (down path s).toList = path.toList ++ s.text := by
  cases s with
  | key k =>
    rw [down, child, Step.text]
    split <;> simp [String.toList_append]
  | index i => simp [down, item, Step.text, String.toList_append]

lemma toList_foldl_down (path : String) (steps : List Step) :
    (steps.foldl down path).toList = path.toList ++ steps.flatMap Step.text := by
  induction steps generalizing path with
  | nil => simp
  | cons s steps ih =>
    rw [List.foldl_cons, ih, toList_down, List.append_assoc, List.flatMap_cons]

/-- All that the text of a step can be, with what is behind it. -/
lemma text_cases (s : Step) (r : List Char) :
    (∃ k, s = .key k ∧ isPlain k = true ∧ s.text ++ r = '.' :: (k.toList ++ r)) ∨
    (∃ k, s = .key k ∧ s.text ++ r = '[' :: ((Json.quoted .unicode k).toList ++ ']' :: r)) ∨
    ∃ i, s = .index i ∧ s.text ++ r = '[' :: ((toString i).toList ++ ']' :: r) := by
  cases s with
  | key k =>
    by_cases hk : isPlain k = true
    · exact Or.inl ⟨k, rfl, hk, by simp [Step.text, hk]⟩
    · exact Or.inr (Or.inl ⟨k, rfl, by simp [Step.text, hk]⟩)
  | index i => exact Or.inr (Or.inr ⟨i, rfl, by simp [Step.text]⟩)

lemma text_ne_nil (s : Step) : s.text ≠ [] := by
  intro h
  obtain ⟨k, -, -, hs⟩ | ⟨k, -, hs⟩ | ⟨i, -, hs⟩ := text_cases s []
  all_goals
    rw [h] at hs
    cases hs

/-! ### The end of a step -/

def IsMark (c : Char) : Prop := c = '.' ∨ c = '['

/-- A text that is at its end, or goes on with a step. -/
def AtStep (r : List Char) : Prop := ∀ c ∈ r.head?, IsMark c

lemma atStep_flatMap (steps : List Step) : AtStep (steps.flatMap Step.text) := by
  intro c hc
  cases steps with
  | nil => cases hc
  | cons s steps =>
    rw [List.flatMap_cons] at hc
    obtain ⟨k, -, -, hs⟩ | ⟨k, -, hs⟩ | ⟨i, -, hs⟩ := text_cases s (steps.flatMap Step.text)
    all_goals
      rw [hs] at hc
      cases hc
    · exact Or.inl rfl
    · exact Or.inr rfl
    · exact Or.inr rfl

/-- A beginning can be told from the rest if the rest begins with what the beginning has not. -/
lemma append_inj_of_avoids {α : Type} {p : α → Prop} {a b r r' : List α} (ha : ∀ x ∈ a, ¬p x)
    (hb : ∀ x ∈ b, ¬p x) (hr : ∀ x ∈ r.head?, p x) (hr' : ∀ x ∈ r'.head?, p x)
    (h : a ++ r = b ++ r') : a = b ∧ r = r' := by
  induction a generalizing b with
  | nil =>
    cases b with
    | nil => exact ⟨rfl, h⟩
    | cons y b =>
      have hy : y ∈ r.head? := by
        rw [List.nil_append] at h
        rw [h]
        rfl
      exact absurd (hr y hy) (hb y List.mem_cons_self)
  | cons x a ih =>
    cases b with
    | nil =>
      have hx : x ∈ r'.head? := by
        rw [List.nil_append] at h
        rw [← h]
        rfl
      exact absurd (hr' x hx) (ha x List.mem_cons_self)
    | cons y b =>
      obtain ⟨rfl, htail⟩ := List.cons.inj h
      obtain ⟨rfl, rfl⟩ := ih (fun z hz => ha z (List.mem_cons_of_mem _ hz))
        (fun z hz => hb z (List.mem_cons_of_mem _ hz)) htail
      exact ⟨rfl, rfl⟩

lemma not_isMark_of_isLater {c : Char} (h : isLater c = true) : ¬IsMark c := by
  rintro (rfl | rfl) <;> cases h

lemma not_isMark_of_isFirst {c : Char} (h : isFirst c = true) : ¬IsMark c := by
  rintro (rfl | rfl) <;> cases h

lemma not_isMark_of_isPlain {k : String} (h : isPlain k = true) : ∀ c ∈ k.toList, ¬IsMark c := by
  unfold isPlain at h
  split at h
  · cases h
  · next c cs hk =>
    rw [Bool.and_eq_true] at h
    intro d hd
    rw [hk] at hd
    rcases List.mem_cons.mp hd with rfl | hd
    · exact not_isMark_of_isFirst h.1
    · rw [← List.takeWhile_append_dropWhile (p := isLater) (l := cs)] at hd
      rcases List.mem_append.mp hd with hd | hd
      · exact not_isMark_of_isLater (List.mem_takeWhile_imp hd)
      · -- behind the plain characters there is at most a line break
        have hend := h.2
        rw [isEnd, Bool.or_eq_true, List.isEmpty_iff, beq_iff_eq] at hend
        rcases hend with hnil | hbreak
        · rw [hnil] at hd
          cases hd
        · rw [hbreak, List.mem_singleton] at hd
          rw [hd]
          rintro (hc | hc) <;> cases hc

lemma toString_int_avoids (i : Int) : ∀ c ∈ (toString i).toList, c = '-' ∨ c.isDigit = true := by
  intro c hc
  rw [Int.toString_eq_repr, Int.repr_eq_if] at hc
  split at hc
  · rw [Nat.toList_repr] at hc
    exact Or.inr (Nat.isDigit_of_mem_toDigits (by decide) (by decide) hc)
  · rw [String.toList_append, Nat.toList_repr] at hc
    rcases List.mem_append.mp hc with hc | hc
    · exact Or.inl (List.mem_singleton.mp hc)
    · exact Or.inr (Nat.isDigit_of_mem_toDigits (by decide) (by decide) hc)

lemma index_append_inj {i j : Int}
    (h : (toString i).toList ++ ']' :: r = (toString j).toList ++ ']' :: r') :
    i = j ∧ r = r' := by
  have avoids : ∀ i : Int, ∀ c ∈ (toString i).toList, ¬c = ']' := by
    rintro i c hc rfl
    rcases toString_int_avoids i _ hc with hc | hc <;> cases hc
  have hend : ∀ r : List Char, ∀ c ∈ (']' :: r).head?, c = ']' := by
    intro r c hc
    cases hc
    rfl
  obtain ⟨hij, hr⟩ := append_inj_of_avoids (avoids i) (avoids j) (hend r) (hend r') h
  rw [String.toList_inj, Int.toString_eq_repr, Int.toString_eq_repr] at hij
  exact ⟨Int.repr_injective hij, (List.cons.inj hr).2⟩

lemma quoted_ne_index {k : String} {i : Int}
    (h : (Json.quoted .unicode k).toList ++ r = (toString i).toList ++ ']' :: r') : False := by
  have hquote : '"' ∈ (toString i).toList ∨ '"' = ']' := by
    rw [Json.quoted, String.toList_ofList] at h
    cases hi : (toString i).toList with
    | nil =>
      rw [hi] at h
      exact Or.inr (List.cons.inj h).1
    | cons c cs =>
      rw [hi] at h
      exact Or.inl ((List.cons.inj h).1 ▸ List.mem_cons_self)
  rcases hquote with hq | hq
  · rcases toString_int_avoids i _ hq with hc | hc <;> cases hc
  · cases hq

/-- The text of a step, with the next step or nothing behind it, is that of no other step. -/
lemma text_append_inj (hr : AtStep r) (hr' : AtStep r') (h : s.text ++ r = t.text ++ r') :
    s = t ∧ r = r' := by
  obtain ⟨k, rfl, hk, hs⟩ | ⟨k, rfl, hs⟩ | ⟨i, rfl, hs⟩ := text_cases s r
  all_goals
    obtain ⟨l, rfl, hl, ht⟩ | ⟨l, rfl, ht⟩ | ⟨j, rfl, ht⟩ := text_cases t r'
    all_goals
      rw [hs, ht] at h
      obtain ⟨hmark, htext⟩ := List.cons.inj h
  · -- two plain keys: each ends where a mark is
    obtain ⟨hkl, hrest⟩ :=
      append_inj_of_avoids (not_isMark_of_isPlain hk) (not_isMark_of_isPlain hl) hr hr' htext
    exact ⟨congrArg Step.key (String.toList_inj.mp hkl), hrest⟩
  · cases hmark
  · cases hmark
  · cases hmark
  · -- two quoted keys: each ends at its closing quote
    obtain ⟨rfl, hrest⟩ := Json.quoted_append_inj htext
    exact ⟨rfl, (List.cons.inj hrest).2⟩
  · exact (quoted_ne_index htext).elim
  · cases hmark
  · exact (quoted_ne_index htext.symm).elim
  · obtain ⟨rfl, hrest⟩ := index_append_inj htext
    exact ⟨rfl, hrest⟩

lemma flatMap_text_inj {a b : List Step} (h : a.flatMap Step.text = b.flatMap Step.text) :
    a = b := by
  induction a generalizing b with
  | nil =>
    cases b with
    | nil => rfl
    | cons t b => simp [text_ne_nil] at h
  | cons s a ih =>
    cases b with
    | nil => simp [text_ne_nil] at h
    | cons t b =>
      rw [List.flatMap_cons, List.flatMap_cons] at h
      obtain ⟨rfl, hrest⟩ := text_append_inj (atStep_flatMap a) (atStep_flatMap b) h
      rw [ih hrest]

/-- The steps from a root can be read off the path. -/
lemma eq_of_foldl_down_eq {root : String} {a b : List Step}
    (h : a.foldl down root = b.foldl down root) : a = b := by
  have htext := congrArg String.toList h
  rw [toList_foldl_down, toList_foldl_down] at htext
  exact flatMap_text_inj (List.append_cancel_left htext)

/-- **Positions have paths of their own**: two sequences of steps lead from a root to one path
exactly if they are the same. -/
theorem foldl_down_inj (root : String) (a b : List Step) :
    a.foldl down root = b.foldl down root ↔ a = b := by
  constructor
  · exact eq_of_foldl_down_eq
  · rintro rfl
    rfl

end Path

end Conform
