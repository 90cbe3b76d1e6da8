import Conform.Pattern.Escape
import Conform.Proofs.Fallible
import Conform.Proofs.Text.Unbroken

/-!
Reading regular expressions that have no line break. No reader takes a line break from such a text,
and where a cause repeats a part of the text as it stands, that part was taken by a reader. Here are
the rules for readers that are put together, and the readers of tokens, names, escapes and sets.
-/

namespace Conform.Pattern

def Token.Unbroken (t : Token) : Prop := '\n' ∉ t.chars

lemma Token.Unbroken.text {t : Token} (h : t.Unbroken) : Text.Unbroken t.text :=
  Text.unbroken_ofList.mpr h

structure State.Unbroken (s : State) : Prop where
  next : ∀ t ∈ s.next, t.Unbroken
  rest : '\n' ∉ s.rest

def Cause.Unbroken : Cause → Prop
  | .badEscape t | .incompleteEscape t | .octalTooLarge t | .missingName t | .unknownExtension t
  | .templateRepeat t => Text.Unbroken t
  | .unterminatedName c => c ≠ '\n'
  | .badRange a b => Text.Unbroken a ∧ Text.Unbroken b
  | _ => True

def Refusal.Unbroken : Refusal → Prop
  | .fault f => f.cause.Unbroken
  | .interrupted _ => True

/-- Names are quoted in messages, and everything else that a message repeats stands as it is. -/
lemma Cause.Unbroken.message {cause : Cause} (h : cause.Unbroken) :
    Text.Unbroken cause.message := by
  cases cause with
  | badEscape | incompleteEscape | missingName | unknownExtension | templateRepeat =>
    exact .after (by decide) h
  | octalTooLarge => exact .between (by decide) h (by decide)
  | badRange => exact .append (.between (by decide) h.1 (by decide)) h.2
  | unterminatedName c =>
    have hname : '\n' ∉ [c] := by simpa using Ne.symm h
    exact .between (by decide) (.literal hname) (by decide)
  | unknownCharacter n | badGroupName n | unknownGroup n =>
    exact .after (by decide) (Text.unbroken_quoted n)
  | redefinedGroup n i j =>
    refine .append (.append (.append ?_ (Text.unbroken_natToString i)) ?_)
      (Text.unbroken_natToString j)
    · exact .between (by decide) (Text.unbroken_quoted n) (by decide)
    · exact .literal (by decide)
  | invalidReference i => exact .after (by decide) (Text.unbroken_natToString i)
  | _ => exact .literal (by decide)

namespace Reader

variable {α β : Type} {r : Reader α} {f : α → Reader β} {P Q : α → Prop} {R : β → Prop} {a : α}
  {s : State} {c : Char} {cs : List Char} {t : Token} {cause : Cause} {n i : Nat}

/-- Where no line break is still to be taken, the reader leaves it so, gives what fits, and refuses
only with what repeats no line break. -/
structure Keeps (r : Reader α) (Q : α → Prop) : Prop where
  ok {s s' : State} {a : α} (hs : s.Unbroken) (h : r.run s = .ok (a, s')) : Q a ∧ s'.Unbroken
  error {s : State} {e : Refusal} (hs : s.Unbroken) (h : r.run s = .error e) : e.Unbroken

/-- The same, whatever it is that the reader gives. -/
abbrev Safe (r : Reader α) : Prop := Keeps r fun _ => True

lemma Keeps.pure (ha : Q a) : Keeps (pure a) Q where
  ok hs h := by
    cases h
    exact ⟨ha, hs⟩
  error _ h := by cases h

lemma Keeps.bind (hr : Keeps r P) (hf : ∀ a, P a → Keeps (f a) R) : Keeps (r >>= f) R where
  ok hs h := by
    rw [StateT.run_bind] at h
    obtain ⟨⟨a, s₁⟩, h₁, h₂⟩ := Fallible.bind_eq_ok_iff.mp h
    obtain ⟨ha, hs₁⟩ := hr.ok hs h₁
    exact (hf a ha).ok hs₁ h₂
  error hs h := by
    rw [StateT.run_bind] at h
    obtain h₁ | ⟨⟨a, s₁⟩, h₁, h₂⟩ := Fallible.bind_eq_error_iff.mp h
    · exact hr.error hs h₁
    · obtain ⟨ha, hs₁⟩ := hr.ok hs h₁
      exact (hf a ha).error hs₁ h₂

lemma Keeps.of_pure (h : Keeps (f a) R) : Keeps (Pure.pure a >>= f) R :=
  Keeps.bind (P := (· = a)) (.pure rfl) fun _ ha => ha ▸ h

lemma Keeps.get : Keeps get State.Unbroken where
  ok hs h := by
    cases h
    exact ⟨hs, hs⟩
  error _ h := by cases h

lemma Keeps.set (hs : s.Unbroken) : Safe (set s) where
  ok _ h := by
    cases h
    exact ⟨trivial, hs⟩
  error _ h := by cases h

lemma Keeps.modify {g : State → State} (hg : ∀ s, s.Unbroken → (g s).Unbroken) :
    Safe (modify g) where
  ok hs h := by
    cases h
    exact ⟨trivial, hg _ hs⟩
  error _ h := by cases h

lemma Keeps.throw {e : Refusal} (he : e.Unbroken) : Keeps (throw e : Reader α) Q where
  ok _ h := by cases h
  error _ h := by
    cases h
    exact he

lemma keeps_failAt (h : cause.Unbroken) : Keeps (failAt cause n : Reader α) Q := .throw h

lemma safe_place : Safe place := .bind .get fun _ _ => .pure trivial

lemma keeps_fail (h : cause.Unbroken) : Keeps (fail cause n : Reader α) Q :=
  safe_place.bind fun _ _ => keeps_failAt h

lemma keeps_throw_bind {e : Refusal} (he : e.Unbroken) : Keeps ((throw e : Reader α) >>= f) R :=
  Keeps.bind (P := fun _ => False) (.throw he) fun _ => False.elim

lemma keeps_failAt_bind (h : cause.Unbroken) : Keeps ((failAt cause n : Reader α) >>= f) R :=
  keeps_throw_bind h

lemma keeps_fail_bind (h : cause.Unbroken) : Keeps ((fail cause n : Reader α) >>= f) R :=
  (keeps_fail (Q := fun _ => False) h).bind fun _ => False.elim

/-! ### Tokens -/

lemma token?_unbroken {next : Option Token} {rest : List Char} {offset m : Nat} (h : '\n' ∉ cs)
    (ht : token? cs offset = .ok (next, rest, m)) : (∀ t ∈ next, t.Unbroken) ∧ '\n' ∉ rest := by
  unfold token? at ht
  split at ht <;> cases ht <;> simp_all [Token.Unbroken, Token.chars]

lemma token?_refused {e : Refusal} {offset : Nat} (ht : token? cs offset = .error e) :
    e.Unbroken := by
  unfold token? at ht
  split at ht <;> cases ht
  trivial

lemma safe_advance : Safe advance := by
  refine .bind .get fun s hs => ?_
  split
  · next h => exact .throw (token?_refused h)
  · next h =>
    obtain ⟨hnext, hrest⟩ := token?_unbroken hs.rest h
    exact .set ⟨hnext, hrest⟩

lemma keeps_take : Keeps take fun o => ∀ t ∈ o, t.Unbroken :=
  .bind .get fun _ hs => safe_advance.bind fun _ _ => .pure hs.next

lemma safe_accept (c : Char) : Safe (accept c) := by
  refine .bind .get fun _ _ => ?_
  split
  · exact safe_advance.bind fun _ _ => .pure trivial
  · exact .pure trivial

lemma keeps_takeWhile (test : Char → Bool) (n : Nat) : Keeps (takeWhile test n) ('\n' ∉ ·) := by
  induction n with
  | zero => exact .pure (by simp)
  | succ n ih =>
    refine .bind .get fun s hs => ?_
    split
    · next c hc =>
      have hbreak : '\n' ≠ c := by simpa [Token.Unbroken, Token.chars] using hs.next _ hc
      split
      · refine safe_advance.bind fun _ _ => ih.bind fun cs hcs => .pure ?_
        simp [hbreak, hcs]
      · exact .pure (by simp)
    · exact .pure (by simp)

lemma safe_left : Safe left := .bind .get fun _ _ => .pure trivial

lemma keeps_takeDigits : Keeps takeDigits ('\n' ∉ ·) :=
  safe_left.bind fun n _ => keeps_takeWhile Char.isDigit n

lemma safe_takeUntil {what : String} (hc : c ≠ '\n') (hwhat : Text.Unbroken what) (n : Nat)
    (taken : List Char) : Safe (takeUntil c what n taken) := by
  induction n generalizing taken with
  | zero => exact keeps_fail hwhat
  | succ n ih =>
    refine keeps_take.bind fun o _ => ?_
    split
    · split
      · exact keeps_fail hwhat
      · exact keeps_fail hc
    · split
      · split
        · exact keeps_fail hwhat
        · exact .pure trivial
      · exact ih _

lemma safe_name {what : String} (hc : c ≠ '\n') (hwhat : Text.Unbroken what) :
    Safe (name c what) :=
  safe_left.bind fun _ _ => safe_takeUntil hc hwhat _ _

lemma safe_groupName (hc : c ≠ '\n') : Safe (groupName c) := by
  refine (safe_name hc (by decide)).bind fun n _ => ?_
  split
  · exact .pure trivial
  · exact keeps_fail trivial

lemma safe_skipPast (c : Char) (n : Nat) : Safe (skipPast c n) := by
  induction n with
  | zero => exact .pure trivial
  | succ n ih =>
    refine keeps_take.bind fun o _ => ?_
    split
    · exact .pure trivial
    · split
      · exact .pure trivial
      · exact ih

lemma safe_skipLine : Safe skipLine :=
  safe_left.bind fun _ _ => (safe_skipPast _ _).bind fun _ _ => .pure trivial

lemma safe_groups : Safe groups := .bind .get fun _ _ => .pure trivial

lemma safe_checkBehind (i : Nat) : Safe (checkBehind i) := by
  refine .bind .get fun s _ => ?_
  split
  · exact .pure trivial
  · split
    · exact keeps_fail trivial
    · split
      · exact keeps_fail trivial
      · exact .pure trivial

lemma safe_openGroup (named : Option String) : Safe (openGroup named) := by
  refine .bind .get fun s hs => ?_
  cases named with
  | none => exact Keeps.bind (.set ⟨hs.next, hs.rest⟩) fun _ _ => .pure trivial
  | some n =>
    dsimp only
    split
    · exact keeps_fail_bind trivial
    · exact Keeps.bind (.set ⟨hs.next, hs.rest⟩) fun _ _ => .pure trivial

lemma safe_widthOf (m : Node) : Safe (widthOf m) := .bind .get fun _ _ => .pure trivial

lemma safe_inside (h : Safe r) : Safe (inside r) := by
  refine .bind .get fun s _ => ?_
  split
  · exact .throw trivial
  · refine Keeps.bind (.modify fun s hs => ⟨hs.next, hs.rest⟩) fun _ _ => h.bind fun a _ => ?_
    exact Keeps.bind (.modify fun s hs => ⟨hs.next, hs.rest⟩) fun _ _ => .pure trivial

lemma safe_closeGroup (i : Nat) (m : Node) : Safe (closeGroup i m) :=
  (safe_widthOf m).bind fun _ _ => .modify fun _ hs => ⟨hs.next, hs.rest⟩

/-! ### Escapes -/

lemma unbroken_written (hc : c ≠ '\n') (hcs : '\n' ∉ cs) :
    Text.Unbroken (String.ofList ('\\' :: c :: cs)) := by
  rw [Text.unbroken_ofList]
  simp [hc.symm, hcs]

lemma safe_hexEscape (hc : c ≠ '\n') (n : Nat) : Safe (hexEscape c n) := by
  refine (keeps_takeWhile _ _).bind fun ds hds => ?_
  have hwritten := unbroken_written hc hds
  dsimp only
  split
  · split
    · exact .pure trivial
    · exact keeps_fail hwritten
  · exact keeps_fail hwritten

lemma safe_namedEscape : Safe namedEscape := by
  refine (safe_accept _).bind fun b _ => ?_
  split
  · refine (safe_name (by decide) (by decide)).bind fun n _ => ?_
    split
    · exact .pure trivial
    · exact keeps_fail trivial
  · exact keeps_fail trivial

lemma safe_plainEscape (hc : c ≠ '\n') : Safe (plainEscape c) := by
  unfold plainEscape
  split
  · exact keeps_fail (unbroken_written hc List.not_mem_nil)
  · exact .pure trivial

lemma safe_octalEscape (hc : c ≠ '\n') (hcs : '\n' ∉ cs) : Safe (octalEscape (c :: cs)) := by
  unfold octalEscape
  dsimp only
  split
  · exact .pure trivial
  · exact keeps_fail (unbroken_written hc hcs)

lemma safe_commonEscape (hc : c ≠ '\n') : Safe (commonEscape c) := by
  unfold commonEscape
  split
  · exact safe_hexEscape (by decide) _
  · exact safe_hexEscape (by decide) _
  · exact safe_hexEscape (by decide) _
  · exact safe_namedEscape
  · exact safe_plainEscape hc

lemma safe_setEscape (hc : c ≠ '\n') : Safe (setEscape c) := by
  unfold setEscape
  split
  · exact .pure trivial
  · exact .pure trivial
  · split
    · refine (keeps_takeWhile _ _).bind fun ds hds => ?_
      exact (safe_octalEscape hc hds).bind fun _ _ => .pure trivial
    · exact (safe_commonEscape hc).bind fun _ _ => .pure trivial

lemma safe_reference (i taken : Nat) : Safe (reference i taken) := by
  refine .bind .get fun s _ => ?_
  split
  · split
    · exact keeps_fail trivial
    · exact (safe_checkBehind i).bind fun _ _ => .pure trivial
  · exact keeps_fail trivial

lemma ne_break_of_plain (h : (Token.plain c).Unbroken) : c ≠ '\n' := by
  rintro rfl
  simp [Token.Unbroken, Token.chars] at h

lemma ne_break_of_escaped (h : (Token.escaped c).Unbroken) : c ≠ '\n' := by
  rintro rfl
  simp [Token.Unbroken, Token.chars] at h

lemma safe_digitEscape (hc : c ≠ '\n') : Safe (digitEscape c) := by
  refine .bind .get fun s hs => ?_
  split
  · next d hd =>
    split
    · refine safe_advance.bind fun _ _ => .bind .get fun s' hs' => ?_
      dsimp only
      split
      · next e he =>
        split
        · refine safe_advance.bind fun _ _ => (safe_octalEscape hc ?_).bind fun _ _ => .pure trivial
          have hd' := ne_break_of_plain (hs.next _ hd)
          have he' := ne_break_of_plain (hs'.next _ he)
          simp [hd'.symm, he'.symm]
        · exact safe_reference _ _
      · exact safe_reference _ _
    · exact safe_reference _ _
  · exact safe_reference _ _

lemma safe_escape (hc : c ≠ '\n') : Safe (escape c) := by
  unfold escape
  split
  · exact .pure trivial
  · exact .pure trivial
  · exact .pure trivial
  · exact .pure trivial
  · exact (keeps_takeWhile _ _).bind fun _ _ => .pure trivial
  · split
    · exact .pure trivial
    · exact .pure trivial
    · split
      · exact safe_digitEscape hc
      · exact (safe_commonEscape hc).bind fun _ _ => .pure trivial

/-! ### Sets -/

lemma safe_member (ht : t.Unbroken) : Safe (member t) := by
  cases t with
  | plain c => exact .pure trivial
  | escaped c => exact safe_setEscape (ne_break_of_escaped ht)

lemma safe_members (start n : Nat) (found : List Member) : Safe (members start n found) := by
  induction n generalizing found with
  | zero => exact keeps_failAt trivial
  | succ n ih =>
    refine keeps_take.bind fun o ho => ?_
    split
    · exact keeps_failAt trivial
    · next this =>
      have hthis : this.Unbroken := ho this rfl
      split
      · exact .pure trivial
      · refine (safe_member hthis).bind fun low _ => (safe_accept _).bind fun b _ => ?_
        split
        · refine keeps_take.bind fun o' ho' => ?_
          split
          · exact keeps_failAt trivial
          · next that =>
            have hthat : that.Unbroken := ho' that rfl
            split
            · exact .pure trivial
            · refine (safe_member hthat).bind fun high _ => ?_
              have hrange : (Cause.badRange this.text that.text).Unbroken :=
                ⟨hthis.text, hthat.text⟩
              dsimp only
              split
              · split
                · exact keeps_fail hrange
                · exact ih _
              · exact keeps_fail hrange
        · exact ih _

lemma safe_charSet : Safe charSet := by
  refine safe_place.bind fun _ _ => (safe_accept _).bind fun _ _ => safe_left.bind fun _ _ => ?_
  refine (safe_members _ _ _).bind fun ms _ => ?_
  split <;> exact .pure trivial

end Reader

end Conform.Pattern
