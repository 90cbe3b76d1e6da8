import Mathlib.Tactic.SplitIfs
import Conform.Json.Printer
import Conform.Proofs.Path
import Conform.Text.Quoted
import Conform.Value.Basic

/-!
Texts without a line break. Numbers, quoted names and JSON are written without one, whatever they
are of; a path, and what a node is shown as, have one only where a key or a text of the document
has.
-/

namespace Conform.Text

variable {s t : String} {sep : String} {l : List String} {cs : List Char} {b n : Nat}

def Unbroken (s : String) : Prop := '\n' ∉ s.toList

instance (s : String) : Decidable (Unbroken s) := inferInstanceAs (Decidable (_ ∉ _))

@[simp] lemma unbroken_append : Unbroken (s ++ t) ↔ Unbroken s ∧ Unbroken t := by
  simp [Unbroken]

@[simp] lemma unbroken_ofList : Unbroken (String.ofList cs) ↔ '\n' ∉ cs := by
  rw [Unbroken, String.toList_ofList]

lemma Unbroken.append (hs : Unbroken s) (ht : Unbroken t) : Unbroken (s ++ t) :=
  unbroken_append.mpr ⟨hs, ht⟩

lemma Unbroken.literal (h : '\n' ∉ cs) : Unbroken (String.ofList cs) := unbroken_ofList.mpr h

lemma Unbroken.after (h : '\n' ∉ cs) (hs : Unbroken s) : Unbroken (String.ofList cs ++ s) :=
  .append (.literal h) hs

lemma Unbroken.between {ds : List Char} (h : '\n' ∉ cs) (hs : Unbroken s) (h' : '\n' ∉ ds) :
    Unbroken (String.ofList cs ++ s ++ String.ofList ds) :=
  .append (.after h hs) (.literal h')

lemma break_notMem_intercalate {c : Char} {sep : List Char} {ls : List (List Char)}
    (hsep : c ∉ sep) (h : ∀ l ∈ ls, c ∉ l) : c ∉ sep.intercalate ls := by
  induction ls with
  | nil => simp
  | cons l r ih =>
    obtain ⟨hl, hr⟩ := List.forall_mem_cons.mp h
    cases r with
    | nil => simpa using hl
    | cons l' r =>
      rw [List.intercalate_cons_cons]
      simp [hl, hsep, ih hr]

lemma unbroken_intercalate (hsep : Unbroken sep) (h : ∀ s ∈ l, Unbroken s) :
    Unbroken (sep.intercalate l) := by
  rw [Unbroken, String.toList_intercalate]
  exact break_notMem_intercalate hsep (List.forall_mem_map.mpr h)

lemma digitChar_ne_break : ∀ n < 16, '\n' ≠ n.digitChar := by decide

lemma break_notMem_toDigits (hb : 1 < b) (hb' : b ≤ 16) (n : Nat) : '\n' ∉ Nat.toDigits b n := by
  induction n using Nat.strongRecOn with
  | ind n ih =>
    rw [Nat.toDigits_eq_if hb]
    split_ifs with hn
    · simp [digitChar_ne_break n (by omega)]
    · have hlt : n / b < n := Nat.div_lt_self (by omega) hb
      have hmod : n % b < b := Nat.mod_lt _ (by omega)
      simp [ih _ hlt, digitChar_ne_break (n % b) (by omega)]

lemma break_notMem_digits (n : Nat) : '\n' ∉ Nat.toDigits 10 n :=
  break_notMem_toDigits (by decide) (by decide) n

@[simp] lemma unbroken_natToString (n : Nat) : Unbroken (toString n) := by
  change '\n' ∉ n.repr.toList
  rw [Nat.toList_repr]
  exact break_notMem_digits n

@[simp] lemma unbroken_intToString (i : Int) : Unbroken (toString i) := by
  intro h
  rcases Path.toString_int_avoids i _ h with h | h <;> cases h

lemma unbroken_hexPadded (width n : Nat) : Unbroken (hexPadded width n) := by
  simp [hexPadded, break_notMem_toDigits (b := 16) (by decide) (by decide) n]

lemma unbroken_exponentText (p : Int) : Unbroken (exponentText p) := by
  rw [exponentText, unbroken_append, unbroken_ofList]
  constructor
  · split_ifs <;> decide
  · split_ifs <;> simp [break_notMem_digits]

lemma unbroken_decimalText (hcs : '\n' ∉ cs) (p : Int) : Unbroken (decimalText cs p) := by
  have htake : ∀ n, '\n' ∉ cs.take n := fun n h => hcs (List.mem_of_mem_take h)
  have hdrop : ∀ n, '\n' ∉ cs.drop n := fun n h => hcs (List.mem_of_mem_drop h)
  unfold decimalText
  split
  · simp [Unbroken, hcs]
  · split
    · dsimp only
      split <;> simp [Unbroken, htake, hdrop]
    · have hexponent := unbroken_exponentText p
      split
      · exact hexponent
      · exact unbroken_append.mpr ⟨unbroken_ofList.mpr hcs, hexponent⟩
      · refine unbroken_append.mpr ⟨unbroken_ofList.mpr ?_, hexponent⟩
        simp only [List.mem_cons, not_or] at hcs ⊢
        exact ⟨hcs.1, by decide, hcs.2⟩

lemma unbroken_binary64 (x : Binary64) : Unbroken x.text := by
  cases x with
  | nan => decide
  | infinite negative => cases negative <;> decide
  | finite negative m e h =>
    rw [Binary64.text, unbroken_append, Binary64.magnitudeText]
    exact ⟨by cases negative <;> decide, unbroken_decimalText (break_notMem_digits _) _⟩

@[simp] lemma unbroken_number (n : Number) : Unbroken n.text := by
  cases n with
  | int n => exact unbroken_intToString n
  | double x => exact unbroken_binary64 x

lemma unbroken_jsonNumber (n : Number) : Unbroken n.jsonText := by
  unfold Number.jsonText
  split
  · exact unbroken_intToString _
  · decide
  · split_ifs <;> decide
  · exact unbroken_binary64 _

/-! ### Quoted texts -/

lemma unbroken_quotedChar {quote : Char} (hq : quote ≠ '\n') (c : Char) :
    Unbroken (quotedChar quote c) := by
  have hcode : ∀ (mark : String) (width n : Nat), Unbroken mark →
      Unbroken (mark ++ hexPadded width n) :=
    fun mark width n h => unbroken_append.mpr ⟨h, unbroken_hexPadded width n⟩
  by_cases hc : c = '\n'
  · subst hc
    have hquote : ¬('\n' = quote || '\n' = '\\') = true := by simp [hq.symm]
    rw [quotedChar, if_neg hquote]
    decide
  have hself : Unbroken c.toString := .literal (by simpa using Ne.symm hc)
  have hafter : Unbroken (String.ofList ['\\', c]) := .literal (by simpa using Ne.symm hc)
  unfold quotedChar
  refine iteInduction (motive := Unbroken) (fun _ => hafter) fun _ => ?_
  iterate 3 refine iteInduction (motive := Unbroken) (fun _ => by decide) fun _ => ?_
  refine iteInduction (motive := Unbroken) (fun _ => ?_) fun _ => ?_
  · exact iteInduction (motive := Unbroken) (fun _ => hcode _ _ _ (by decide)) fun _ => hself
  iterate 2
    refine iteInduction (motive := Unbroken) (fun _ => hcode _ _ _ (by decide)) fun _ => ?_
  exact hcode _ _ _ (by decide)

@[simp] lemma unbroken_quoted (s : String) : Unbroken (quoted s) := by
  have hquote : ∀ {quote : Char}, quote ≠ '\n' → Unbroken
      (quote.toString ++ String.join (s.toList.map (quotedChar quote)) ++ quote.toString) := by
    intro quote hq
    have hchar := fun c => unbroken_quotedChar hq c
    simp only [Unbroken] at hchar ⊢
    simp [hq.symm, String.toList_join, hchar]
  unfold quoted
  dsimp only
  split_ifs <;> exact hquote (by decide)

lemma unbroken_escaped (set : Json.Charset) (c : Char) : '\n' ∉ Json.escaped set c := by
  have hcode : ∀ n, '\n' ∉ '\\' :: 'u' :: (hexPadded 4 n).toList := fun n => by
    have h : '\n' ∉ (hexPadded 4 n).toList := unbroken_hexPadded 4 n
    simpa using h
  by_cases hc : c = '\n'
  · subst hc
    cases set <;> decide
  unfold Json.escaped
  iterate 7 refine iteInduction (motive := ('\n' ∉ ·)) (fun _ => by decide) fun _ => ?_
  refine iteInduction (motive := ('\n' ∉ ·)) (fun _ => hcode _) fun _ => ?_
  refine iteInduction (motive := ('\n' ∉ ·)) (fun _ => ?_) fun _ => by simpa using Ne.symm hc
  refine iteInduction (motive := ('\n' ∉ ·)) (fun _ => hcode _) fun _ => ?_
  exact List.mem_append.not.mpr (not_or.mpr ⟨hcode _, hcode _⟩)

@[simp] lemma unbroken_jsonQuoted (set : Json.Charset) (s : String) :
    Unbroken (Json.quoted set s) := by
  rw [Json.quoted, unbroken_ofList]
  simp [unbroken_escaped]

mutual

lemma unbroken_json : ∀ j : Json, Unbroken j.text
  | .null => by decide
  | .bool b => by cases b <;> decide
  | .number n => unbroken_jsonNumber n
  | .string s => unbroken_jsonQuoted .ascii s
  | .array js => by
    have hcomma : Unbroken ", " := .literal (by decide)
    exact .between (by decide) (unbroken_intercalate hcomma (unbroken_itemTexts js)) (by decide)
  | .object ms => by
    have hcomma : Unbroken ", " := .literal (by decide)
    exact .between (by decide) (unbroken_intercalate hcomma (unbroken_memberTexts ms)) (by decide)

lemma unbroken_itemTexts : ∀ js : List Json, ∀ s ∈ Json.itemTexts js, Unbroken s
  | [] => List.forall_mem_nil _
  | j :: r => List.forall_mem_cons.mpr ⟨unbroken_json j, unbroken_itemTexts r⟩

lemma unbroken_memberTexts : ∀ ms : List (String × Json), ∀ s ∈ Json.memberTexts ms, Unbroken s
  | [] => List.forall_mem_nil _
  | (k, j) :: r => by
    have hmember : Unbroken (Json.quoted .ascii k ++ ": " ++ j.text) :=
      .append (.append (unbroken_jsonQuoted .ascii k) (.literal (by decide))) (unbroken_json j)
    exact List.forall_mem_cons.mpr ⟨hmember, unbroken_memberTexts r⟩

end

/-! ### Paths and nodes -/

lemma unbroken_child {path key : String} (hp : Unbroken path) (hk : Unbroken key) :
    Unbroken (Path.child path key) := by
  unfold Path.child
  split
  · exact .append (.append hp (.literal (by decide))) hk
  · have hquoted := unbroken_jsonQuoted .unicode key
    exact .append (.append (.append hp (.literal (by decide))) hquoted) (.literal (by decide))

lemma unbroken_item {path : String} (hp : Unbroken path) (i : Int) :
    Unbroken (Path.item path i) :=
  .append (.append (.append hp (.literal (by decide))) (unbroken_intToString i))
    (.literal (by decide))

lemma break_notMem_cut (h : '\n' ∉ cs) (n : Int) : '\n' ∉ Value.cut cs n := by
  unfold Value.cut
  split <;> exact fun hm => h (List.mem_of_mem_take hm)

/-- A node without a line break in its text is shown without one. -/
lemma unbroken_display {v : Value} (h : ∀ s, v.text? = some s → Unbroken s) (limit : Int) :
    Unbroken (v.display limit) := by
  cases v with
  | object ms => exact .between (by decide) (unbroken_natToString ms.length) (by decide)
  | array vs => exact .between (by decide) (unbroken_natToString vs.length) (by decide)
  | string s =>
    have hs : '\n' ∉ s.toList := h s rfl
    refine .literal ?_
    split <;> simp [hs, break_notMem_cut hs]
  | number k n => exact unbroken_number n
  | boolean b => cases b <;> exact .literal (by decide)
  | null => exact .literal (by decide)
  | temporal k s => exact h s rfl

end Conform.Text
