import Conform.Proofs.Engine
import Conform.Proofs.Outcome.Report
import Conform.Proofs.Pattern.Unbroken
import Conform.Proofs.Schema.Nodes
import Conform.Proofs.Value.Nodes

/-!
The reports of validations. Where no text of the document and none of the schema has a line break,
no finding has one: numbers, listed values and quoted names never do, and a faulty pattern is told
of without one. The report then has a line for each finding.
-/

namespace Conform

structure Value.Unbroken (v : Value) : Prop where
  keys : ∀ k ∈ Members.keys v.members, Text.Unbroken k
  text : ∀ t ∈ v.text?, Text.Unbroken t

/-- No text that the schema node gives to findings has a line break. -/
structure Schema.Unbroken (s : Schema) : Prop where
  type : ∀ t ∈ s.type, Text.Unbroken t
  required : ∀ k ∈ s.required, Text.Unbroken k
  pattern : ∀ t ∈ s.pattern, Text.Unbroken t
  malformed : ∀ k ∈ s.malformed, Text.Unbroken k
  shapeError : ∀ t ∈ s.shapeError, Text.Unbroken t

namespace Finding

variable {path message expected found : String}

lemma unbroken_other (hp : Text.Unbroken path) (hm : Text.Unbroken message) :
    (Finding.other path message).Unbroken where
  path := hp
  message := hm
  expected he _ := by cases he
  found he _ := by cases he

/-- A finding with texts for what was expected and what was found. -/
lemma Unbroken.of_shown {k : FindingKind} (hp : Text.Unbroken path) (hm : Text.Unbroken message)
    (he : Text.Unbroken expected) (hg : Text.Unbroken found) :
    Finding.Unbroken ⟨k, path, message, some expected, some found⟩ where
  path := hp
  message := hm
  expected h _ := by
    cases h
    exact he
  found _ h := by
    cases h
    exact hg

lemma unbroken_invalidType (inArray : Bool) (hp : Text.Unbroken path)
    (he : Text.Unbroken expected) (hg : Text.Unbroken found) :
    (Finding.invalidType path expected found inArray).Unbroken := by
  cases inArray with
  | true => exact .of_shown hp (.between (by decide) hp (by decide)) he hg
  | false => exact .of_shown hp (.between (by decide) hp (by decide)) he hg

end Finding

namespace Validator

variable {e : Setup} {v x : Value} {s t : Schema} {p q : Site} {f : Finding} {d : Dialect}
  {path : String}

lemma unbroken_kindName (d : Dialect) (k : Kind) : Text.Unbroken (d.kindName k) := by
  cases d <;> rcases k with _ | _ | _ | k | _ | _ | k <;> try cases k
  all_goals exact .literal (by decide)

lemma unbroken_form (k : TemporalKind) : Text.Unbroken k.form := by
  cases k <;> exact .literal (by decide)

lemma unbroken_allowed (js : List Json) : Text.Unbroken (", ".intercalate (js.map Json.text)) :=
  Text.unbroken_intercalate (.literal (by decide))
    (List.forall_mem_map.mpr fun j _ => Text.unbroken_json j)

lemma EntryViolation.unbroken (h : EntryViolation e v s p f) (hv : v.Unbroken) (hs : s.Unbroken)
    (hp : Text.Unbroken p.path) : f.Unbroken := by
  cases h with
  | noSchema _ h => exact Finding.unbroken_other hp (hs.shapeError _ h)
  | tooDeep =>
    have hlimit := Text.unbroken_intToString e.maxDepth
    exact Finding.unbroken_other hp (.between (by decide) hlimit (by decide))
  | malformed _ h =>
    exact Finding.unbroken_other hp (.between (by decide) (hs.malformed _ h) (by decide))
  | unknownType _ set _ =>
    exact Finding.unbroken_other hp (.between (by decide) (hs.type _ set) (by decide))
  | wrongType _ set _ _ =>
    exact Finding.unbroken_invalidType _ hp (hs.type _ set) (unbroken_kindName _ _)
  | @wrongForm _ _ k _ _ _ isText _ =>
    have hform := unbroken_form k
    have hmessage : Text.Unbroken ("Invalid " ++ k.form ++ " format at '" ++ p.path ++ "'") :=
      .append (.append (.between (by decide) hform (by decide)) hp) (.literal (by decide))
    exact .of_shown hp hmessage hform (hv.text _ isText)

lemma ContentViolation.unbroken (h : ContentViolation d s path v f) (hv : v.Unbroken)
    (hs : s.Unbroken) (hp : Text.Unbroken path) : f.Unbroken := by
  have hshown := Text.unbroken_display hv.text Value.displayLimit
  have hcount : ∀ n : Nat, Text.Unbroken (toString n) := Text.unbroken_natToString
  have hnumber : ∀ n : Number, Text.Unbroken n.text := Text.unbroken_number
  cases h with
  | missingTable required =>
    have hname := hs.required _ required
    exact {
      path := Text.unbroken_child hp hname
      message := .between (by decide) hname (by decide)
      expected := fun _ h => by cases h
      found := fun _ h => by cases h }
  | missingProperty required =>
    have hname := hs.required _ required
    exact {
      path := Text.unbroken_child hp hname
      message := .between (by decide) hname (by decide)
      expected := fun h => by cases h
      found := fun h => by cases h }
  | undeclared present =>
    have hkey := hv.keys _ present
    exact Finding.unbroken_other (Text.unbroken_child hp hkey)
      (.between (by decide) hkey (by decide))
  | tooFewItems | tooManyItems =>
    exact .of_shown hp (.after (by decide) (hcount _)) (.between (by decide) (hcount _) (by decide))
      (.between (by decide) (hcount _) (by decide))
  | tooShort | tooLong =>
    exact .of_shown hp (.after (by decide) (hcount _)) (.after (by decide) (hcount _))
      (.after (by decide) (hcount _))
  | faultyPattern _ set h =>
    have hmessage := Pattern.unbroken_message (hs.pattern _ set) h
    exact Finding.unbroken_other hp (.after (by decide) (hmessage _))
  | noMatch _ set =>
    exact .of_shown hp (.literal (by decide)) (.after (by decide) (hs.pattern _ set)) hshown
  | belowMinimum | aboveMaximum | notAbove | notBelow | noMultiple =>
    exact .of_shown hp (.after (by decide) (hnumber _)) (.after (by decide) (hnumber _)) (hnumber _)
  | @notListed _ js =>
    have hallowed := unbroken_allowed js
    exact .of_shown hp (.after (by decide) hallowed) (.between (by decide) hallowed (by decide))
      hshown

lemma Checked.unbroken (h : Checked e v s p x t q) (hv : v.Everywhere Value.Unbroken)
    (hs : s.Everywhere Schema.Unbroken) (hp : Text.Unbroken p.path) :
    x.Everywhere Value.Unbroken ∧ t.Everywhere Schema.Unbroken ∧ Text.Unbroken q.path := by
  induction h with
  | root => exact ⟨hv, hs, hp⟩
  | member _ _ mem declared ih =>
    obtain ⟨hx, ht, hq⟩ := ih
    have hkey := hx.here.keys _ (Members.mem_keys_of_mem mem)
    exact ⟨hx.member mem, ht.property declared, Text.unbroken_child hq hkey⟩
  | item _ _ at_index declared ih =>
    obtain ⟨hx, ht, hq⟩ := ih
    exact ⟨hx.item (List.mem_of_getElem? at_index), ht.items declared, Text.unbroken_item hq _⟩

lemma Violated.unbroken (h : Violated e v s p f) (hv : v.Everywhere Value.Unbroken)
    (hs : s.Everywhere Schema.Unbroken) (hp : Text.Unbroken p.path) : f.Unbroken := by
  obtain ⟨x, t, q, hc, h⟩ := h
  obtain ⟨hx, ht, hq⟩ := hc.unbroken hv hs hp
  obtain h | ⟨-, h⟩ := h
  · exact h.unbroken hx.here ht.here hq
  · exact h.unbroken hx.here ht.here hq

end Validator

namespace Engine

variable {e : Engine} {d : Dialect} {v : Value} {s : Schema} {o : Outcome}

/-- Without line breaks in the document and the schema there are none in the findings. -/
lemma unbroken_of_validateParsed (h : e.validateParsed d v s = .ok o)
    (hv : v.Everywhere Value.Unbroken) (hs : s.Everywhere Schema.Unbroken) :
    ∀ f ∈ o.findings, f.Unbroken := by
  obtain ⟨-, rfl⟩ | ⟨fs, hfs, -, rfl⟩ := validateParsed_ok h
  · exact List.forall_mem_nil _
  · intro f hf
    have hviolated := (Validator.mem_of_validate hfs).mp hf
    exact hviolated.unbroken hv hs (.literal (by decide))

/-- **A line for each finding**: the report of an outcome with findings is its header and one line
for each finding, beginning with its number, path and message, if and only if none of the texts
that the findings put into it has a line break. None has one if there is none in the keys and texts
of the document and in the texts of the schema. -/
theorem report_lined_iff (h : e.validateParsed d v s = .ok o) (hfs : o.ok = false) :
    (o.Lined ↔ ∀ f ∈ o.findings, f.Unbroken) ∧
      (v.Everywhere Value.Unbroken → s.Everywhere Schema.Unbroken → o.Lined) :=
  ⟨Outcome.lined_iff hfs,
    fun hv hs => (Outcome.lined_iff hfs).mpr (unbroken_of_validateParsed h hv hs)⟩

/-- A missing member, and a pattern with a fault in it, below a key with a blank. -/
theorem report_lined_faulty :
    let v : Value := .object [("a b", .string "x")]
    let s : Schema := { required := ["id"], properties := [("a b", { pattern := some "(" })] }
    let o : Outcome := .failure .json
      [.missingProperty "$.id" "id",
        .other "$[\"a b\"]"
          ("Invalid regex pattern in schema: missing ), unterminated subpattern" ++
            " at position 0")]
    standard.validateParsed .json v s = .ok o ∧ o.ok = false ∧
      v.Everywhere Value.Unbroken ∧ s.Everywhere Schema.Unbroken ∧
      (∀ f ∈ o.findings, f.Unbroken) ∧ o.Lined := by
  intro v s o
  have hrun : standard.validateParsed .json v s = .ok o := by rfl
  have hv : v.Everywhere Value.Unbroken := by
    refine .intro ⟨by decide, by decide⟩ fun c hc => ?_
    obtain rfl := List.mem_singleton.mp hc
    exact .intro ⟨by decide, by decide⟩ (List.forall_mem_nil _)
  have hs : s.Everywhere Schema.Unbroken := by
    refine .intro ⟨by decide, by decide, by decide, by decide, by decide⟩ ?_ (by simp [s])
    refine List.forall_mem_singleton.mpr (.leaf ?_ rfl rfl)
    exact ⟨by decide, by decide, by decide, by decide, by decide⟩
  have hlined := report_lined_iff hrun rfl
  exact ⟨hrun, rfl, hv, hs, hlined.1.mp (hlined.2 hv hs), hlined.2 hv hs⟩

/-- A text that goes on in a second line brings a second numbered line into the report of its one
finding. -/
theorem line_break_forges :
    let v : Value := .string "a\n[2] $.id: lost"
    let s : Schema := { pattern := some "^b$" }
    let o : Outcome := .failure .json
      [.invalidFormat "$" "^b$" "\"a\n[2] $.id: lost\""]
    standard.validateParsed .json v s = .ok o ∧
      o.report = "JSON schema validation failed with 1 error(s):\n" ++
        "[1] $: String does not match pattern (expected: pattern: ^b$, found: \"a\n" ++
        "[2] $.id: lost\")" ∧
      ¬o.Lined := by
  intro v s o
  have hbroken : ¬∀ f ∈ o.findings, f.Unbroken := fun h =>
    absurd ((h _ List.mem_cons_self).found rfl rfl) (by decide)
  exact ⟨by rfl, by decide +kernel, fun h => hbroken ((Outcome.lined_iff rfl).mp h)⟩

end Engine

end Conform
