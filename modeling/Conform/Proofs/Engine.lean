import Conform.Engine
import Conform.Proofs.Document
import Conform.Proofs.Validator.Findings
import Conform.Toml.Reader

/-!
The outcome of validating sources. Something was not read, or nothing was found, or something was
found: one of the three, and each shows in whether there is a value and whether there are findings.
What was not read is told in the outcome, unless the text is lost.
-/

namespace Conform

open Fallible

namespace Validator

variable {d : Dialect} {e : Setup} {v : Value} {s : Schema} {p : Site} {f : Finding} {path : String}

lemma EntryViolation.kind_ne (h : EntryViolation e v s p f) : f.kind ≠ .parseError := by
  cases h with
  | wrongType => unfold Finding.invalidType; split <;> exact nofun
  | noSchema | tooDeep | malformed | unknownType | wrongForm => exact nofun

lemma ContentViolation.kind_ne (h : ContentViolation d s path v f) : f.kind ≠ .parseError := by
  cases h <;> exact nofun

lemma Violated.kind_ne (h : Violated e v s p f) : f.kind ≠ .parseError := by
  obtain ⟨x, t, q, -, h | ⟨-, h⟩⟩ := h
  · exact h.kind_ne
  · exact h.kind_ne

end Validator

/-! ### The three shapes of an outcome -/

namespace Engine

variable {e : Engine} {d : Dialect} {document schema : Source} {o : Outcome} {i : Interruption}
  {v : Value} {s : Schema}

def ExactlyOne (p q r : Prop) : Prop := (p ∧ ¬q ∧ ¬r) ∨ (¬p ∧ q ∧ ¬r) ∨ (¬p ∧ ¬q ∧ r)

lemma validateParsed_ok (h : e.validateParsed d v s = .ok o) :
    (Validator.validate (e.setup d) v s "$" = .ok [] ∧ o = .success d v) ∨
    ∃ fs, Validator.validate (e.setup d) v s "$" = .ok fs ∧ fs ≠ [] ∧ o = .failure d fs := by
  unfold validateParsed at h
  split at h
  · next hv =>
    cases h
    exact Or.inl ⟨hv, rfl⟩
  · next fs hne hv =>
    cases h
    exact Or.inr ⟨fs, hv, hne, rfl⟩
  · cases h

section

variable [Toml.Decoder]

/-- The document is not read, or it is and the schema is not; to tell so is the only finding. -/
def Unread (d : Dialect) (document schema : Source) (o : Outcome) : Prop :=
  ∃ role u, (d.readDocument document = .error (.unreadable role u) ∨
      ∃ v, d.readDocument document = .ok v ∧ Schema.read schema = .error (.unreadable role u)) ∧
    o.value = none ∧
    o.findings = [{ kind := .parseError, path := "$", message := u.message role }]

/-- Both are read and there is no finding; the value is the document. -/
def Passed (e : Engine) (d : Dialect) (document schema : Source) (o : Outcome) : Prop :=
  ∃ v s, d.readDocument document = .ok v ∧ Schema.read schema = .ok s ∧
    Validator.validate (e.setup d) v s "$" = .ok [] ∧ o.value = some v ∧ o.findings = []

/-- Both are read and there are findings, none of them that something is not read. -/
def Failed (e : Engine) (d : Dialect) (document schema : Source) (o : Outcome) : Prop :=
  ∃ v s fs, d.readDocument document = .ok v ∧ Schema.read schema = .ok s ∧
    Validator.validate (e.setup d) v s "$" = .ok fs ∧ fs ≠ [] ∧ o.value = none ∧
    o.findings = fs ∧ ∀ f ∈ o.findings, f.kind ≠ .parseError

lemma read_ok_iff : read d document schema = .ok (v, s) ↔
    d.readDocument document = .ok v ∧ Schema.read schema = .ok s := by
  rw [read, bind_eq_ok_iff]
  constructor
  · rintro ⟨v', hv, h⟩
    obtain ⟨s', hs, h⟩ := bind_eq_ok_iff.mp h
    cases h
    exact ⟨hv, hs⟩
  · rintro ⟨hv, hs⟩
    exact ⟨v, hv, by rw [hs]; rfl⟩

lemma read_error_iff {f : Failure} : read d document schema = .error f ↔
    d.readDocument document = .error f ∨
      ∃ v, d.readDocument document = .ok v ∧ Schema.read schema = .error f := by
  rw [read, bind_eq_error_iff]
  refine or_congr_right (exists_congr fun v => and_congr_right fun _ => ?_)
  rw [bind_eq_error_iff]
  constructor
  · rintro (h | ⟨s, -, h⟩)
    · exact h
    · cases h
  · exact Or.inl

lemma shape_of_validate (h : e.validate d document schema = .ok o) :
    Unread d document schema o ∨ Passed e d document schema o ∨ Failed e d document schema o := by
  unfold validate at h
  split at h
  · next v s hr =>
    obtain ⟨hv, hs⟩ := read_ok_iff.mp hr
    rcases validateParsed_ok h with ⟨hok, rfl⟩ | ⟨fs, hok, hne, rfl⟩
    · exact Or.inr (Or.inl ⟨v, s, hv, hs, hok, rfl, rfl⟩)
    · refine Or.inr (Or.inr ⟨v, s, fs, hv, hs, hok, hne, rfl, rfl, fun f hf => ?_⟩)
      exact ((Validator.mem_of_validate hok).mp hf).kind_ne
  · next role u hr =>
    cases h
    exact Or.inl ⟨role, u, read_error_iff.mp hr, rfl, rfl⟩
  · cases h

lemma Unread.not_read (h : Unread d document schema o) (hv : d.readDocument document = .ok v)
    (hs : Schema.read schema = .ok s) : False := by
  obtain ⟨role, u, h | ⟨w, -, h⟩, -⟩ := h
  · rw [hv] at h
    cases h
  · rw [hs] at h
    cases h

lemma Unread.not_passed (h : Unread d document schema o) : ¬Passed e d document schema o :=
  fun ⟨_, _, hv, hs, _⟩ => h.not_read hv hs

lemma Unread.not_failed (h : Unread d document schema o) : ¬Failed e d document schema o :=
  fun ⟨_, _, _, hv, hs, _⟩ => h.not_read hv hs

lemma Passed.not_failed (h : Passed e d document schema o) : ¬Failed e d document schema o := by
  obtain ⟨v, s, -, -, -, -, hnil⟩ := h
  rintro ⟨_, _, fs, -, -, -, hne, -, hfs, -⟩
  exact hne (hfs.symm.trans hnil)

/-- **Three shapes**: an outcome is that something is not read, or that nothing is found, or that
something is, and never two of these; there is a value exactly if there is no finding. -/
theorem validate_trichotomy (h : e.validate d document schema = .ok o) :
    ExactlyOne (Unread d document schema o) (Passed e d document schema o)
      (Failed e d document schema o) ∧
    (o.ok = true ↔ o.findings = []) ∧ (o.findings = [] ↔ o.value.isSome = true) := by
  have hok : o.ok = true ↔ o.findings = [] := List.isEmpty_iff
  rcases shape_of_validate h with h | h | h
  · refine ⟨Or.inl ⟨h, h.not_passed, h.not_failed⟩, hok, ?_⟩
    obtain ⟨role, u, -, hval, hfs⟩ := h
    simp [hval, hfs]
  · refine ⟨Or.inr (Or.inl ⟨fun hu => hu.not_passed h, h, h.not_failed⟩), hok, ?_⟩
    obtain ⟨v, s, -, -, -, hval, hfs⟩ := h
    simp [hval, hfs]
  · refine ⟨Or.inr (Or.inr ⟨fun hu => hu.not_failed h, fun hp => hp.not_failed h, h⟩), hok, ?_⟩
    obtain ⟨v, s, fs, -, -, -, hne, hval, hfs, -⟩ := h
    simp [hval, hfs, hne]

end

/-- Where neither the document nor the schema can be read, the document is told of. -/
theorem validate_bothUnread :
    let o := Outcome.parseFailure .json
      "Document parsing error: Expecting ',' delimiter: line 1 column 3 (char 2)"
    let document := Source.text "[1"
    let schema := Source.text "["
    standard.validate .json document schema = .ok o ∧
      ExactlyOne (Unread .json document schema o) (Passed standard .json document schema o)
        (Failed standard .json document schema o) ∧
      (o.ok = true ↔ o.findings = []) ∧ (o.findings = [] ↔ o.value.isSome = true) :=
  ⟨rfl, validate_trichotomy rfl⟩

/-! ### What is not read -/

lemma validate_of_read_error [Toml.Decoder] {f : Failure} (h : read d document schema = .error f) :
    (∃ role u, f = .unreadable role u ∧
      e.validate d document schema = .ok (.parseFailure d (u.message role))) ∨
    ∃ i, f = .interrupted i ∧ e.validate d document schema = .error i := by
  cases f with
  | unreadable role u => exact Or.inl ⟨role, u, rfl, by rw [validate, h]⟩
  | interrupted i => exact Or.inr ⟨i, rfl, by rw [validate, h]⟩

/-- **Failures are told**: what a reader gives is a result or a message in its role, except for
sources that are lost: in JSON to an integer with too many digits, and in TOML to an error of the
decoder that is not caught or to a date-time that cannot be written. Each failure that is told is
told in the outcome, and there is none for the others. -/
theorem failures_told [Toml.Decoder] (e : Engine) (d : Dialect) (document schema : Source) :
    (Told .document (Document.readJson document) ↔ ¬document.Lost .document LostToInteger) ∧
    (Told .document (Document.readToml document) ↔ ¬document.Lost .document LostToDecoder) ∧
    (Told .schema (Schema.read schema) ↔ ¬schema.Lost .schema LostToInteger) ∧
    ∀ f, (d.readDocument document = .error f ∨
        ∃ v, d.readDocument document = .ok v ∧ Schema.read schema = .error f) →
      (∃ role u, f = .unreadable role u ∧
        e.validate d document schema = .ok (.parseFailure d (u.message role))) ∨
      ∃ i, f = .interrupted i ∧ e.validate d document schema = .error i := by
  refine ⟨tells_document_readJson.told_iff document, tells_document_readToml.told_iff document,
    tells_schema_read.told_iff schema, fun f h => ?_⟩
  exact validate_of_read_error (read_error_iff.mpr h)

lemma nines_lost_of_lt [Toml.Decoder] {n : Nat} (h : digitLimit < n) :
    Document.readJson (.text (String.ofList (List.replicate n '9'))) =
        .error (.interrupted (.tooManyDigits n)) ∧
      ¬∃ o, e.validate .json (.text (String.ofList (List.replicate n '9'))) schema = .ok o := by
  have hlost := (tells_document_readJson.interrupted_iff
      (.text (String.ofList (List.replicate n '9'))) (.tooManyDigits n)).mpr
    ⟨_, congrArg Except.ok String.toList_ofList, n, rfl, Json.meetsLongInteger_nines h⟩
  refine ⟨hlost, fun ⟨o, ho⟩ => ?_⟩
  have herr : read .json (.text (String.ofList (List.replicate n '9'))) schema =
      .error (.interrupted (.tooManyDigits n)) := read_error_iff.mpr (Or.inl hlost)
  rw [validate, herr] at ho
  cases ho

/-- A document of 4301 nines is lost: no failure is told, and there is no outcome. -/
theorem nines_lost :
    Document.readJson (.text (String.ofList (List.replicate 4301 '9'))) =
        .error (.interrupted (.tooManyDigits 4301)) ∧
      ¬∃ o, standard.validate .json (.text (String.ofList (List.replicate 4301 '9')))
        (.text "\x7b\x7d") = .ok o :=
  nines_lost_of_lt (by decide)

end Engine

end Conform
