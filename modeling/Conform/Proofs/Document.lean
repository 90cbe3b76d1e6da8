import Conform.Document
import Conform.Proofs.Json.LongInteger
import Conform.Proofs.Json.Numbers

/-!
What comes of reading sources: a tree or a schema, a message in the role of the source, or nothing
at all. There is nothing exactly if an integer in JSON has too many digits, or if the decoder of TOML
ends in an error that is not caught or gives a date-time that cannot be written.
-/

namespace Conform

open Fallible

variable {src : Source} {role : Role} {text : List Char} {j : Json} {i : Interruption} {v : Value}
  {s : Schema}

lemma Source.decode_error {f : Failure} (h : src.decode role = .error f) :
    ∃ g, f = .unreadable role (.encoding g) := by
  cases src with
  | text s => cases h
  | bytes bs =>
    rw [Source.decode] at h
    split at h
    · cases h
    · next g _ =>
      cases h
      exact ⟨g, rfl⟩

lemma Source.readJson_ok_iff :
    src.readJson role = .ok j ↔ ∃ text, src.decode role = .ok text ∧ Json.parse text = .ok j := by
  rw [Source.readJson, bind_eq_ok_iff]
  refine exists_congr fun text => and_congr_right fun _ => ?_
  constructor
  · intro h
    split at h
    · next hp =>
      cases h
      exact hp
    all_goals cases h
  · intro h
    rw [h]
    rfl

lemma Source.readJson_interrupted_iff :
    src.readJson role = .error (.interrupted i) ↔
      ∃ text n, src.decode role = .ok text ∧ Json.parse text = .error (.tooManyDigits n) ∧
        i = .tooManyDigits n := by
  rw [Source.readJson, bind_eq_error_iff]
  constructor
  · rintro (h | ⟨text, ht, h⟩)
    · obtain ⟨g, hg⟩ := Source.decode_error h
      cases hg
    · split at h
      · cases h
      · cases h
      · cases h
      · next n hp =>
        cases h
        exact ⟨text, n, ht, hp, rfl⟩
  · rintro ⟨text, n, ht, hp, rfl⟩
    refine Or.inr ⟨text, ht, ?_⟩
    rw [hp]
    rfl

lemma Source.readJson_unreadable {r : Role} {u : Unreadable}
    (h : src.readJson role = .error (.unreadable r u)) : r = role := by
  rw [Source.readJson] at h
  rcases bind_eq_error_iff.mp h with h | ⟨text, -, h⟩
  · obtain ⟨g, hg⟩ := Source.decode_error h
    cases hg
    rfl
  · split at h <;> cases h <;> rfl

lemma Document.readJson_ok (h : Document.readJson src = .ok v) :
    ∃ j, src.readJson .document = .ok j ∧ v = Value.ofJson j := by
  obtain ⟨j, hj, h⟩ := bind_eq_ok_iff.mp h
  refine ⟨j, hj, ?_⟩
  split at h
  · cases h
  · cases h
    rfl

/-! ### Readers -/

/-- A reader tells each of its failures in one role, except that on some texts there is nothing to
tell. -/
structure Tells {α : Type} (read : Source → Except Failure α) (role : Role)
    (lost : List Char → Interruption → Prop) : Prop where
  role_eq : ∀ src r u, read src = .error (.unreadable r u) → r = role
  interrupted_iff : ∀ src i, read src = .error (.interrupted i) ↔
    ∃ text, src.decode role = .ok text ∧ lost text i

/-- A source that is lost to a reader: what it decodes to is a text on which there is nothing to
tell. -/
def Source.Lost (src : Source) (role : Role) (lost : List Char → Interruption → Prop) : Prop :=
  ∃ i text, src.decode role = .ok text ∧ lost text i

/-- What a reader gives is told: it is a result, or it is a message in the role. -/
def Told {α : Type} (role : Role) (given : Except Failure α) : Prop :=
  (∃ a, given = .ok a) ∨ ∃ u, given = .error (.unreadable role u)

/-- What a reader gives is told exactly if the source is not lost to it. -/
lemma Tells.told_iff {α : Type} {read : Source → Except Failure α}
    {lost : List Char → Interruption → Prop} (h : Tells read role lost) (src : Source) :
    Told role (read src) ↔ ¬src.Lost role lost := by
  constructor
  · rintro htold ⟨i, hlost⟩
    have hi := (h.interrupted_iff src i).mpr hlost
    rcases htold with ⟨a, ha⟩ | ⟨u, hu⟩
    · rw [ha] at hi
      cases hi
    · rw [hu] at hi
      cases hi
  · intro hkept
    cases hr : read src with
    | ok a => exact Or.inl ⟨a, rfl⟩
    | error f =>
      cases f with
      | unreadable r u =>
        cases h.role_eq src r u hr
        exact Or.inr ⟨u, rfl⟩
      | interrupted i => exact absurd ⟨i, (h.interrupted_iff src i).mp hr⟩ hkept

def LostToInteger (text : List Char) (i : Interruption) : Prop :=
  ∃ n, i = .tooManyDigits n ∧ Json.MeetsLongInteger text n

/-- The texts that are lost to the decoder: it ends in an error of a sort that is not caught, or it
gives a tree that cannot be written out. -/
def LostToDecoder [Toml.Decoder] (text : List Char) (i : Interruption) : Prop :=
  Toml.Decoder.decode text = .error (.other i) ∨ Toml.Decoder.decode text = .error (.unwritable i)

lemma tells_readJson (role : Role) : Tells (Source.readJson role) role LostToInteger where
  role_eq _ _ _ := Source.readJson_unreadable
  interrupted_iff src i := by
    rw [Source.readJson_interrupted_iff]
    constructor
    · rintro ⟨text, n, ht, hp, hi⟩
      exact ⟨text, ht, n, hi, Json.parse_tooManyDigits_iff.mp hp⟩
    · rintro ⟨text, ht, n, hi, hm⟩
      exact ⟨text, n, ht, Json.parse_tooManyDigits_iff.mpr hm, hi⟩

lemma tells_document_readJson : Tells Document.readJson .document LostToInteger where
  role_eq src r u h := by
    rcases bind_eq_error_iff.mp h with h | ⟨j, -, h⟩
    · exact (tells_readJson _).role_eq _ _ _ h
    · split at h <;> cases h
      rfl
  interrupted_iff src i := by
    rw [← (tells_readJson .document).interrupted_iff, Document.readJson, bind_eq_error_iff]
    constructor
    · rintro (h | ⟨j, -, h⟩)
      · exact h
      · split at h <;> cases h
    · exact Or.inl

lemma tells_schema_read : Tells Schema.read .schema LostToInteger where
  role_eq src r u h := by
    rcases bind_eq_error_iff.mp h with h | ⟨j, -, h⟩
    · exact (tells_readJson _).role_eq _ _ _ h
    · split at h <;> cases h
      rfl
  interrupted_iff src i := by
    rw [← (tells_readJson .schema).interrupted_iff, Schema.read, bind_eq_error_iff]
    constructor
    · rintro (h | ⟨j, -, h⟩)
      · exact h
      · split at h <;> cases h
    · exact Or.inl

lemma tells_document_readToml [Toml.Decoder] :
    Tells Document.readToml .document LostToDecoder where
  role_eq src r u h := by
    rcases bind_eq_error_iff.mp h with h | ⟨text, -, h⟩
    · obtain ⟨g, hg⟩ := Source.decode_error h
      cases hg
      rfl
    · split at h
      · split at h <;> cases h
        rfl
      all_goals
        cases h
        try rfl
  interrupted_iff src i := by
    rw [Document.readToml, bind_eq_error_iff]
    constructor
    · rintro (h | ⟨text, ht, h⟩)
      · obtain ⟨g, hg⟩ := Source.decode_error h
        cases hg
      · refine ⟨text, ht, ?_⟩
        split at h
        · split at h <;> cases h
        · cases h
        · cases h
        · cases h
        · cases h
        · cases h
        · next hp =>
          cases h
          exact Or.inl hp
        · next hp =>
          cases h
          exact Or.inr hp
    · rintro ⟨text, ht, hl | hl⟩ <;> exact Or.inr ⟨text, ht, by rw [hl]; rfl⟩

end Conform
