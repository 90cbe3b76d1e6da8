import Conform.Pattern.Basic
import Conform.Proofs.Pattern.Keeps

/-!
What is said of a regular expression that is refused: if the expression has no line break, neither
has what is said of it. This is so for every reader of a group, a repetition and a sequence, and so
for a whole expression.
-/

namespace Conform.Pattern

namespace Reader

variable {t : Token} {fuel : Nat}

lemma safe_flagsOn (n : Nat) (t : Token) (on : Flags) : Safe (flagsOn n t on) := by
  induction n generalizing t on with
  | zero => exact keeps_fail trivial
  | succ n ih =>
    unfold flagsOn
    split
    · split
      · exact keeps_fail trivial
      · dsimp only
        split
        · exact keeps_fail trivial
        · refine keeps_take.bind fun o _ => ?_
          split
          · exact keeps_fail trivial
          · split
            · exact .pure trivial
            · split
              · exact ih _ _
              · exact keeps_fail (by split <;> trivial)
    · exact keeps_fail trivial

lemma safe_flagsOff (n : Nat) (t : Token) (off : Flags) : Safe (flagsOff n t off) := by
  induction n generalizing t off with
  | zero => exact keeps_fail trivial
  | succ n ih =>
    unfold flagsOff
    split
    · split
      · exact keeps_fail trivial
      · split
        · exact keeps_fail trivial
        · dsimp only
          refine keeps_take.bind fun o _ => ?_
          split
          · exact keeps_fail trivial
          · split
            · exact .pure trivial
            · split
              · exact ih _ _
              · exact keeps_fail (by split <;> trivial)
    · exact keeps_fail trivial

lemma safe_groupFlags (t : Token) : Safe (groupFlags t) := by
  unfold groupFlags
  -- What comes after a part is reached from each way to read that part.
  extract_lets afterOn
  have hafterOn : ∀ x, Safe (afterOn x) := by
    rintro ⟨on, t⟩
    unfold afterOn
    dsimp -zeta only
    split
    · exact Keeps.bind (.modify fun s hs => ⟨hs.next, hs.rest⟩) fun _ _ => .pure trivial
    extract_lets afterOff minus
    have hafterOff : ∀ off, Safe (afterOff off) := by
      intro off
      unfold afterOff
      dsimp only
      split
      · exact keeps_fail_bind trivial
      · split
        · exact keeps_fail_bind trivial
        · exact .pure trivial
    have hminus : Safe (minus ()) := by
      unfold minus
      split
      · refine keeps_take.bind fun o _ => ?_
        split
        · exact keeps_fail_bind trivial
        · split
          · exact safe_left.bind fun n _ => (safe_flagsOff n _ _).bind fun off _ => hafterOff off
          · exact keeps_fail_bind (by split <;> trivial)
      · exact .of_pure (hafterOff .none)
    split
    · exact keeps_fail_bind trivial
    · exact hminus
  split
  · exact .of_pure (hafterOn (.none, t))
  · exact safe_left.bind fun n _ => (safe_flagsOn n _ _).bind fun x _ => hafterOn x

lemma safe_condition : Safe condition := by
  refine (safe_name (by decide) (by decide)).bind fun n _ => ?_
  dsimp only
  split
  · refine .bind .get fun s _ => ?_
    split
    · exact .pure trivial
    · exact keeps_fail trivial
  · split
    · exact keeps_fail trivial
    · exact keeps_fail trivial
    · split
      · exact keeps_fail trivial
      · refine safe_place.bind fun p _ => ?_
        refine Keeps.bind (.modify fun s hs => ?_) fun _ _ => .pure trivial
        split
        · exact hs
        · exact ⟨hs.next, hs.rest⟩

lemma unbroken_extension {mark : String} (hm : Text.Unbroken mark) (ht : t.Unbroken) :
    (Cause.unknownExtension (mark ++ t.text)).Unbroken :=
  hm.append ht.text

lemma safe_namedGroup : Safe namedGroup := by
  unfold namedGroup
  refine (safe_accept _).bind fun _ _ => ?_
  split
  · exact (safe_groupName (by decide)).bind fun _ _ => .pure trivial
  · refine (safe_accept _).bind fun _ _ => ?_
    split
    · refine (safe_groupName (by decide)).bind fun n _ => .bind .get fun s _ => ?_
      split
      · exact keeps_fail trivial
      · refine .bind .get fun s' _ => ?_
        split
        · exact keeps_fail trivial
        · exact (safe_checkBehind _).bind fun _ _ => .pure trivial
    · refine keeps_take.bind fun o ho => ?_
      split
      · exact keeps_fail trivial
      · next t =>
        have ht : t.Unbroken := ho t rfl
        exact keeps_fail (unbroken_extension (.literal (by decide)) ht)

lemma safe_lookingBack : Safe lookingBack := by
  refine keeps_take.bind fun o ho => ?_
  split
  · exact keeps_fail trivial
  · exact .pure trivial
  · exact .pure trivial
  · next t _ _ => exact keeps_fail (unbroken_extension (.literal (by decide)) (ho t rfl))

lemma safe_announced (start : Nat) (atStart : Bool) : Safe (announced start atStart) := by
  unfold announced
  refine (safe_accept _).bind fun b _ => ?_
  split
  · exact .pure trivial
  · refine keeps_take.bind fun o ho => ?_
    split
    · exact keeps_fail trivial
    · next t =>
      have ht : t.Unbroken := ho t rfl
      split
      · exact safe_namedGroup
      · exact .pure trivial
      · refine safe_left.bind fun n _ => (safe_skipPast _ n).bind fun _ _ => ?_
        split
        · exact .pure trivial
        · exact keeps_failAt trivial
      · exact .pure trivial
      · exact .pure trivial
      · exact safe_lookingBack
      · exact .pure trivial
      · exact .pure trivial
      · split
        · refine (safe_groupFlags _).bind fun _ _ => ?_
          split
          · exact .pure trivial
          · split
            · exact .pure trivial
            · exact keeps_failAt trivial
        · have hextension : (Cause.unknownExtension t.text).Unbroken := ht.text
          exact keeps_fail hextension

lemma safe_close (start : Nat) : Safe (close start) := by
  refine (safe_accept _).bind fun b _ => ?_
  split
  · exact keeps_failAt trivial
  · exact .pure trivial

/-! ### Repetitions -/

lemma safe_count (ds : List Char) : Safe (count ds) := by
  unfold count
  dsimp only
  split
  · exact keeps_throw_bind trivial
  · split
    · exact keeps_throw_bind trivial
    · exact .pure trivial

lemma safe_bounds? : Safe bounds? := by
  unfold bounds?
  refine .bind .get fun s hs => ?_
  split
  · exact .pure trivial
  refine safe_place.bind fun start _ => keeps_takeDigits.bind fun low _ => ?_
  refine (safe_accept _).bind fun _ _ => ?_
  extract_lets afterHigh
  have hafterHigh : ∀ high, Safe (afterHigh high) := by
    intro high
    refine (safe_accept _).bind fun _ _ => ?_
    split
    · exact (Keeps.set hs).bind fun _ _ => .pure trivial
    extract_lets afterLow
    have hafterLow : ∀ least, Safe (afterLow least) := by
      intro least
      unfold afterLow
      split
      · exact .pure trivial
      · refine (safe_count _).bind fun most _ => ?_
        dsimp only
        split
        · exact keeps_failAt_bind trivial
        · exact .pure trivial
    split
    · exact .of_pure (hafterLow 0)
    · exact (safe_count _).bind fun _ _ => hafterLow _
  split
  · exact keeps_takeDigits.bind fun _ _ => hafterHigh _
  · exact .of_pure (hafterHigh low)

lemma safe_repeatable (done : List Node) (sign : Nat) : Safe (repeatable done sign) := by
  unfold repeatable
  split
  · exact keeps_failAt trivial
  · exact keeps_failAt trivial
  · exact keeps_failAt trivial
  · exact .pure trivial

lemma safe_again (done : List Node) (sign least : Nat) (most : Option Nat) :
    Safe (again done sign least most) := by
  refine (safe_repeatable done sign).bind fun x _ => ?_
  refine (safe_accept _).bind fun _ _ => ?_
  split
  · exact .pure trivial
  · refine (safe_accept _).bind fun _ _ => ?_
    split
    · exact .pure trivial
    · exact .pure trivial

/-! ### Sequences and groups -/

/-- The readers that call each other, with so much fuel. -/
structure AllSafe (fuel : Nat) : Prop where
  choice (top verbose : Bool) : Safe (choice fuel top verbose)
  alternatives (top verbose : Bool) : Safe (alternatives fuel top verbose)
  sequence (atStart verbose : Bool) (done : List Node) : Safe (sequence fuel atStart verbose done)
  opened (start : Nat) (atStart verbose : Bool) : Safe (opened fuel start atStart verbose)

lemma AllSafe.choice_succ (h : AllSafe fuel) (top verbose : Bool) :
    Safe (Reader.choice (fuel + 1) top verbose) := by
  refine (h.sequence _ _ _).bind fun _ _ => (h.alternatives _ _).bind fun _ _ => .pure trivial

lemma AllSafe.alternatives_succ (h : AllSafe fuel) (top verbose : Bool) :
    Safe (Reader.alternatives (fuel + 1) top verbose) := by
  refine (safe_accept _).bind fun _ _ => ?_
  split
  · refine .bind .get fun s _ => (h.sequence _ _ _).bind fun _ _ => ?_
    exact (h.alternatives _ _).bind fun _ _ => .pure trivial
  · exact .pure trivial

lemma AllSafe.sequence_succ (h : AllSafe fuel) (atStart verbose : Bool) (done : List Node) :
    Safe (Reader.sequence (fuel + 1) atStart verbose done) := by
  have hagain : ∀ sign least most,
      Safe (again done sign least most >>= Reader.sequence fuel atStart verbose) :=
    fun _ _ _ => (safe_again _ _ _ _).bind fun _ _ => h.sequence _ _ _
  refine .bind .get fun s hs => ?_
  split
  · exact .pure trivial
  · exact .pure trivial
  · exact .pure trivial
  · next t _ _ ht =>
    refine safe_place.bind fun sign _ => safe_advance.bind fun _ _ => ?_
    split
    · next c =>
      have hc := ne_break_of_escaped (hs.next _ ht)
      exact (safe_escape hc).bind fun _ _ => h.sequence _ _ _
    · split
      · exact h.sequence _ _ _
      · split
        · exact safe_skipLine.bind fun _ _ => h.sequence _ _ _
        · split
          · exact safe_charSet.bind fun _ _ => h.sequence _ _ _
          · exact h.sequence _ _ _
          · exact h.sequence _ _ _
          · exact h.sequence _ _ _
          · exact hagain _ _ _
          · exact hagain _ _ _
          · exact hagain _ _ _
          · refine safe_bounds?.bind fun _ _ => ?_
            split
            · exact h.sequence _ _ _
            · exact hagain _ _ _
          · refine (h.opened _ _ _).bind fun _ _ => ?_
            split
            · exact h.sequence _ _ _
            · exact h.sequence _ _ _
            · exact .bind .get fun _ _ => h.sequence _ _ _
          · exact h.sequence _ _ _

lemma AllSafe.opened_succ (h : AllSafe fuel) (start : Nat) (atStart verbose : Bool) :
    Safe (Reader.opened (fuel + 1) start atStart verbose) := by
  have hchoice : ∀ verbose, Safe (inside (Reader.choice fuel false verbose)) :=
    fun _ => safe_inside (h.choice _ _)
  have hbranch : Safe (inside (Reader.sequence fuel false verbose [])) :=
    safe_inside (h.sequence _ _ _)
  refine (safe_announced _ _).bind fun a _ => ?_
  split
  · exact .pure trivial
  · refine safe_condition.bind fun i _ => (safe_checkBehind i).bind fun _ _ => ?_
    refine hbranch.bind fun yes _ => (safe_accept _).bind fun _ _ => ?_
    extract_lets afterNo
    have hafterNo : ∀ no, Safe (afterNo no) :=
      fun no => (safe_close _).bind fun _ _ => .pure trivial
    split
    · refine hbranch.bind fun no _ => .bind .get fun s _ => ?_
      dsimp only
      split
      · exact keeps_fail_bind trivial
      · exact .of_pure (hafterNo no)
    · exact .of_pure (hafterNo .empty)
  · refine (safe_openGroup _).bind fun i _ => (hchoice _).bind fun body _ => ?_
    exact (safe_close _).bind fun _ _ => (safe_closeGroup _ _).bind fun _ _ => .pure trivial
  · exact (hchoice _).bind fun _ _ => (safe_close _).bind fun _ _ => .pure trivial
  · exact (hchoice _).bind fun _ _ => (safe_close _).bind fun _ _ => .pure trivial
  · exact (hchoice _).bind fun _ _ => (safe_close _).bind fun _ _ => .pure trivial
  · refine .bind .get fun s _ => ?_
    extract_lets outer afterLimit
    have hafterLimit : ∀ x, Safe (afterLimit x) := by
      refine fun _ => (hchoice _).bind fun body _ => ?_
      extract_lets afterBody
      have hafterBody : ∀ x, Safe (afterBody x) := fun _ =>
        (safe_close _).bind fun _ _ => (safe_widthOf _).bind fun _ _ => .pure trivial
      split
      · exact Keeps.bind (.modify fun s hs => ⟨hs.next, hs.rest⟩) fun x _ => hafterBody x
      · exact hafterBody ()
    split
    · refine safe_groups.bind fun limit _ => ?_
      exact Keeps.bind (.modify fun s hs => ⟨hs.next, hs.rest⟩) fun x _ => hafterLimit x
    · exact hafterLimit ()

lemma allSafe (fuel : Nat) : AllSafe fuel := by
  induction fuel with
  | zero =>
    exact ⟨fun _ _ => keeps_fail trivial, fun _ _ => keeps_fail trivial,
      fun _ _ _ => keeps_fail trivial, fun _ _ _ => keeps_fail trivial⟩
  | succ fuel ih =>
    exact ⟨ih.choice_succ, ih.alternatives_succ, ih.sequence_succ, ih.opened_succ⟩

lemma safe_expression (fuel : Nat) : Safe (expression fuel) := by
  refine ((allSafe fuel).choice _ _).bind fun n _ => .bind .get fun s _ => ?_
  dsimp only
  split
  · exact keeps_throw_bind trivial
  · split
    · exact keeps_fail_bind trivial
    · split
      · exact keeps_failAt trivial
      · exact .pure trivial

end Reader

lemma unbroken_of_check {template : Bool} {m : Node} {cause : Cause}
    (h : m.check template = .error cause) : cause.Unbroken := by
  induction m with
  | cat a b iha ihb | alt a b iha ihb | conditional _ a b iha ihb =>
    obtain ha | ⟨_, -, hb⟩ := Fallible.bind_eq_error_iff.mp h
    · exact iha ha
    · exact ihb hb
  | again appetite least most body ih =>
    unfold Node.check at h
    dsimp only at h
    split at h
    · cases h
      cases appetite <;> exact .literal (by decide)
    · exact ih h
  | behind negated least most body ih =>
    unfold Node.check at h
    dsimp only at h
    split at h
    · cases h
      trivial
    split at h
    · cases h
      trivial
    · exact ih h
  | group _ _ _ _ ih | atomic _ ih | ahead _ _ ih => exact ih h
  | empty | char | notChar | any | set | anchor | backref => cases h

/-- A fault of a text without a line break repeats none. -/
lemma unbroken_of_compile {source : String} {f : Fault} (hs : Text.Unbroken source)
    (h : compile source = .error (.fault f)) : f.cause.Unbroken := by
  unfold compile at h
  obtain h | ⟨⟨next, rest, offset⟩, ht, h⟩ := Fallible.bind_eq_error_iff.mp h
  · exact Reader.token?_refused h
  have hstart : State.Unbroken { next, rest, offset } := by
    obtain ⟨hnext, hrest⟩ := Reader.token?_unbroken hs ht
    exact ⟨hnext, hrest⟩
  obtain h | ⟨⟨⟨root, flags, groups⟩, _⟩, -, h⟩ := Fallible.bind_eq_error_iff.mp h
  · exact (Reader.safe_expression _).error hstart h
  · dsimp only at h
    split at h
    · next cause hc =>
      cases h
      exact unbroken_of_check hc
    · cases h

/-- What is said of a fault of a text without a line break has none. -/
lemma unbroken_message {source : String} {f : Fault} (hs : Text.Unbroken source)
    (h : compile source = .error (.fault f)) (text : List Char) :
    Text.Unbroken (f.message text) := by
  have hcause := (unbroken_of_compile hs h).message
  unfold Fault.message
  split
  · exact hcause
  · next p _ =>
    have htold : Text.Unbroken (f.cause.message ++ " at position " ++ toString p) :=
      .append (.append hcause (.literal (by decide))) (Text.unbroken_natToString p)
    dsimp only
    split
    · have hline : Text.Unbroken (toString (Text.lineColumn text p).1) :=
        Text.unbroken_natToString _
      have hcolumn : Text.Unbroken (toString (Text.lineColumn text p).2) :=
        Text.unbroken_natToString _
      refine .append (.append (.append (.append (.append htold ?_) hline) ?_) hcolumn) ?_ <;>
        exact .literal (by decide)
    · exact htold

end Conform.Pattern
