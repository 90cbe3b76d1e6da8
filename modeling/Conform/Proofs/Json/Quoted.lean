import Mathlib.Tactic.Lemma
import Conform.Json.Quoted
import Conform.Json.Reader

/-!
Reading what was quoted. The reader takes each escaped character back to the character, and stops
at the closing quote; so a quoted string can be told from the text that it stands in.
-/

namespace Conform.Json

variable {start pos n : Nat} {c d : Char} {r done : List Char}

lemma stringFrom_plain (hq : c ≠ '"') (hb : c ≠ '\\') (hc : 0x20 ≤ c.toNat) :
    stringFrom start (c :: r) pos done = stringFrom start r (pos + 1) (c :: done) := by
  have hlt : ¬c.toNat < 0x20 := by omega
  rw [stringFrom]
  · exact if_neg hlt
  all_goals simp_all

lemma stringFrom_letter (h : control? c = some d) :
    stringFrom start ('\\' :: c :: r) pos done = stringFrom start r (pos + 2) (d :: done) := by
  have hu : c ≠ 'u' := by
    rintro rfl
    cases h
  rw [stringFrom, h]
  all_goals simp_all

lemma stringFrom_code {x y z w : Char} (h : hex4? x y z w = some n) (hn : n < 0x20)
    (hr : r ≠ []) :
    stringFrom start ('\\' :: 'u' :: x :: y :: z :: w :: r) pos done =
      stringFrom start r (pos + 6) (Char.ofNat n :: done) := by
  have hne : r.isEmpty = false := by simpa using hr
  have hhigh : isHighSurrogate n = false := by
    simp only [isHighSurrogate, Bool.and_eq_false_iff, decide_eq_false_iff_not]
    omega
  have hlow : isLowSurrogate n = false := by
    simp only [isLowSurrogate, Bool.and_eq_false_iff, decide_eq_false_iff_not]
    omega
  rw [stringFrom, h]
  simp only [hne, Bool.false_eq_true, if_false]
  split <;> simp [hhigh, hlow, charOfCode]

lemma hex4?_hexPadded (h : n < 0x20) :
    ∃ x y z w, (Text.hexPadded 4 n).toList = [x, y, z, w] ∧ hex4? x y z w = some n := by
  have hall : ∀ m < 0x20, (fun l : List Char =>
      l = [l.getD 0 '0', l.getD 1 '0', l.getD 2 '0', l.getD 3 '0'] ∧
        hex4? (l.getD 0 '0') (l.getD 1 '0') (l.getD 2 '0') (l.getD 3 '0') = some m)
      (Text.hexPadded 4 m).toList := by
    decide +kernel
  exact ⟨_, _, _, _, hall n h⟩

/-- All that the escape of a character can be: a letter after a backslash, the code of a control
character, or the character itself. -/
lemma escaped_cases (c : Char) :
    (∃ l, control? l = some c ∧ escaped .unicode c = ['\\', l]) ∨
    (c.toNat < 0x20 ∧ escaped .unicode c = '\\' :: 'u' :: (Text.hexPadded 4 c.toNat).toList) ∨
    (c ≠ '"' ∧ c ≠ '\\' ∧ 0x20 ≤ c.toNat ∧ escaped .unicode c = [c]) := by
  by_cases h : c ∈ ['"', '\\', '\n', '\r', '\t', '\x0c', '\x08']
  · left
    simp only [List.mem_cons, List.not_mem_nil, or_false] at h
    rcases h with rfl | rfl | rfl | rfl | rfl | rfl | rfl
    · exact ⟨'"', rfl, rfl⟩
    · exact ⟨'\\', rfl, rfl⟩
    · exact ⟨'n', rfl, rfl⟩
    · exact ⟨'r', rfl, rfl⟩
    · exact ⟨'t', rfl, rfl⟩
    · exact ⟨'f', rfl, rfl⟩
    · exact ⟨'b', rfl, rfl⟩
  · right
    simp only [List.mem_cons, List.not_mem_nil, or_false, not_or] at h
    obtain ⟨h1, h2, h3, h4, h5, h6, h7⟩ := h
    by_cases hc : c.toNat < 0x20
    · left
      refine ⟨hc, ?_⟩
      simp only [escaped, h1, h2, h3, h4, h5, h6, h7, hc, if_false, if_true]
      rfl
    · right
      refine ⟨h1, h2, by omega, ?_⟩
      simp [escaped, h1, h2, h3, h4, h5, h6, h7, hc]

lemma stringFrom_escaped (start pos : Nat) (done : List Char) (c : Char) (hr : r ≠ []) :
    ∃ n, stringFrom start (escaped .unicode c ++ r) pos done =
      stringFrom start r (pos + n) (c :: done) := by
  obtain ⟨l, hl, he⟩ | ⟨hc, he⟩ | ⟨hq, hb, hc, he⟩ := escaped_cases c
  · rw [he]
    exact ⟨2, stringFrom_letter hl⟩
  · obtain ⟨x, y, z, w, hx, hn⟩ := hex4?_hexPadded hc
    refine ⟨6, ?_⟩
    rw [he, hx]
    simpa only [Char.ofNat_toNat, List.cons_append, List.nil_append] using stringFrom_code hn hc hr
  · rw [he]
    exact ⟨1, stringFrom_plain hq hb hc⟩

/-! ### Strings -/

/-- What stands between quotes is read as the string that was quoted. -/
theorem stringFrom_flatMap_escaped (start pos : Nat) (done r cs : List Char) :
    ∃ n, stringFrom start (cs.flatMap (escaped .unicode) ++ '"' :: r) pos done =
      .ok (String.ofList (done.reverse ++ cs), ⟨r, n⟩) := by
  induction cs generalizing pos done with
  | nil => exact ⟨pos + 1, by simp [stringFrom]⟩
  | cons c cs ih =>
    have hr : cs.flatMap (escaped .unicode) ++ '"' :: r ≠ [] := by simp
    obtain ⟨n, hn⟩ := stringFrom_escaped start pos done c hr
    obtain ⟨m, hm⟩ := ih (pos + n) (c :: done)
    refine ⟨m, ?_⟩
    rw [List.flatMap_cons, List.append_assoc, hn, hm]
    simp

/-- A quoted string that begins a text is the only one that does. -/
theorem quoted_append_inj {a b : String} {r r' : List Char}
    (h : (quoted .unicode a).toList ++ r = (quoted .unicode b).toList ++ r') : a = b ∧ r = r' := by
  simp only [quoted, String.toList_ofList, List.cons_append, List.append_assoc,
    List.nil_append, List.cons.injEq, true_and] at h
  obtain ⟨n, hn⟩ := stringFrom_flatMap_escaped 0 0 [] r a.toList
  obtain ⟨m, hm⟩ := stringFrom_flatMap_escaped 0 0 [] r' b.toList
  have heq := hn.symm.trans ((congrArg (stringFrom 0 · 0 []) h).trans hm)
  simp only [List.reverse_nil, List.nil_append, Except.ok.injEq, Prod.mk.injEq, Cursor.mk.injEq,
    String.ofList_toList] at heq
  exact ⟨heq.1, heq.2.1⟩

end Conform.Json
