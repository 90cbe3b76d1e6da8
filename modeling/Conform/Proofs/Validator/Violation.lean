import Mathlib.Tactic.Lemma
import Conform.Validator.Walk

/-!
What a validation is to find, said without the walk that finds it.

A pair of a value and a schema is checked at a site if a chain of entered containers leads there
from the root. A checked pair is violated by the checks before it is entered or, once it is
entered, by those of its content. A pair that is entered may also break everything off: its
pattern or its number may be beyond what is read or written.
-/

namespace Conform.Validator

/-- A value that is there, under a schema that is one, no deeper than the walk goes. -/
structure Admitted (e : Setup) (v : Value) (s : Schema) (p : Site) : Prop where
  present : v ≠ .null
  isSchema : s.shapeError = none
  inReach : (p.depth : Int) ≤ e.maxDepth

def HasForm (r : TypeRule) (v : Value) : Prop :=
  ∀ k text, r = .temporal k → v.text? = some text → k.holds text = true

/-- The type of a schema, if it is set, names a rule that takes the value, form and all. -/
def HasType (d : Dialect) (v : Value) (s : Schema) : Prop :=
  ∀ type, s.type = some type →
    ∃ r, d.rule? type = some r ∧ r.accepts d v = true ∧ HasForm r v

structure Entered (e : Setup) (v : Value) (s : Schema) (p : Site) : Prop
    extends Admitted e v s p where
  hasType : HasType e.dialect v s

lemma Entered.of_untyped {e : Setup} {v : Value} {s : Schema} {p : Site} (hv : v ≠ .null)
    (hs : s.shapeError = none) (ht : s.type = none) (hd : (p.depth : Int) ≤ e.maxDepth) :
    Entered e v s p where
  present := hv
  isSchema := hs
  inReach := hd
  hasType type h := by
    rw [ht] at h
    cases h

/-- The pairs that are checked, each at its site, when the walk begins with a pair at a site. -/
inductive Checked (e : Setup) (v : Value) (s : Schema) (p : Site) :
    Value → Schema → Site → Prop where
  | root : Checked e v s p v s p
  | member {ms : List (String × Value)} {t u : Schema} {q : Site} {key : String} {x : Value}
      (container : Checked e v s p (.object ms) t q) (entered : Entered e (.object ms) t q)
      (mem : (key, x) ∈ ms) (declared : t.property? key = some u) :
      Checked e v s p x u (q.member key)
  | item {vs : List Value} {t u : Schema} {q : Site} {i : Nat} {x : Value}
      (container : Checked e v s p (.array vs) t q) (entered : Entered e (.array vs) t q)
      (at_index : vs[i]? = some x) (declared : t.items = some u) :
      Checked e v s p x u (q.item i)

/-! ### Violations -/

inductive EntryViolation (e : Setup) (v : Value) (s : Schema) (p : Site) : Finding → Prop where
  | noSchema {error : String} (present : v ≠ .null) (h : s.shapeError = some error) :
      EntryViolation e v s p (.other p.path error)
  | tooDeep (present : v ≠ .null) (isSchema : s.shapeError = none)
      (h : e.maxDepth < (p.depth : Int)) :
      EntryViolation e v s p
        (.other p.path ("Maximum nesting depth of " ++ toString e.maxDepth ++ " exceeded"))
  | malformed {keyword : String} (admitted : Admitted e v s p) (h : keyword ∈ s.malformed) :
      EntryViolation e v s p (.other p.path ("Malformed schema keyword '" ++ keyword ++ "'"))
  | unknownType {type : String} (admitted : Admitted e v s p) (set : s.type = some type)
      (h : e.dialect.rule? type = none) :
      EntryViolation e v s p (.other p.path ("Unrecognized schema type '" ++ type ++ "'"))
  | wrongType {type : String} {r : TypeRule} (admitted : Admitted e v s p)
      (set : s.type = some type) (known : e.dialect.rule? type = some r)
      (h : r.accepts e.dialect v = false) :
      EntryViolation e v s p
        (.invalidType p.path type (e.dialect.kindName v.kind) p.inArray)
  | wrongForm {type text : String} {k : TemporalKind} (admitted : Admitted e v s p)
      (set : s.type = some type) (known : e.dialect.rule? type = some (.temporal k))
      (isText : v.text? = some text) (h : k.holds text = false) :
      EntryViolation e v s p (.invalidDateTime p.path k.form text)

def MissesTable (d : Dialect) (s : Schema) (name : String) : Prop :=
  d.reportsTables = true ∧ ∃ t, s.property? name = some t ∧ t.declaresTable = true

/-- The violations of the content of a pair that is entered, members and items apart. -/
inductive ContentViolation (d : Dialect) (s : Schema) (path : String) :
    Value → Finding → Prop where
  | missingTable {ms : List (String × Value)} {name : String} (required : name ∈ s.required)
      (absent : name ∉ Members.keys ms) (h : MissesTable d s name) :
      ContentViolation d s path (.object ms) (.tableNotFound (Path.child path name) name)
  | missingProperty {ms : List (String × Value)} {name : String} (required : name ∈ s.required)
      (absent : name ∉ Members.keys ms) (h : ¬MissesTable d s name) :
      ContentViolation d s path (.object ms) (.missingProperty (Path.child path name) name)
  | undeclared {ms : List (String × Value)} {key : String} (present : key ∈ Members.keys ms)
      (h : s.property? key = none) (closed : s.additionalProperties = some false) :
      ContentViolation d s path (.object ms)
        (.other (Path.child path key) ("Additional property '" ++ key ++ "' not allowed"))
  | tooFewItems {vs : List Value} {n : Nat} (set : s.minItems = some n) (h : vs.length < n) :
      ContentViolation d s path (.array vs)
        (.invalidValue path ("Array has fewer items than required minimum of " ++ toString n)
          ("array with min " ++ toString n ++ " items")
          ("array with " ++ toString vs.length ++ " items"))
  | tooManyItems {vs : List Value} {n : Nat} (set : s.maxItems = some n) (h : n < vs.length) :
      ContentViolation d s path (.array vs)
        (.invalidValue path ("Array has more items than allowed maximum of " ++ toString n)
          ("array with max " ++ toString n ++ " items")
          ("array with " ++ toString vs.length ++ " items"))
  | tooShort {v : Value} {text : String} {n : Nat} (isText : v.text? = some text)
      (set : s.minLength = some n) (h : text.length < n) :
      ContentViolation d s path v
        (.invalidValue path ("String is shorter than required minimum length " ++ toString n)
          ("length >= " ++ toString n) ("length " ++ toString text.length))
  | tooLong {v : Value} {text : String} {n : Nat} (isText : v.text? = some text)
      (set : s.maxLength = some n) (h : n < text.length) :
      ContentViolation d s path v
        (.invalidValue path ("String is longer than allowed maximum length " ++ toString n)
          ("length <= " ++ toString n) ("length " ++ toString text.length))
  | faultyPattern {v : Value} {text source : String} {f : Pattern.Fault}
      (isText : v.text? = some text) (set : s.pattern = some source)
      (h : Pattern.compile source = .error (.fault f)) :
      ContentViolation d s path v
        (.other path ("Invalid regex pattern in schema: " ++ f.message source.toList))
  | noMatch {v : Value} {text source : String} {r : Pattern} (isText : v.text? = some text)
      (set : s.pattern = some source) (compiled : Pattern.compile source = .ok r)
      (h : r.occursIn text = false) :
      ContentViolation d s path v
        (.invalidFormat path source (v.display Value.displayLimit))
  | belowMinimum {k : NumberKind} {n b : Number} (set : s.minimum = some b)
      (h : n.lt b = true) :
      ContentViolation d s path (.number k n)
        (.invalidValue path ("Number is less than required minimum " ++ b.text)
          (">= " ++ b.text) n.text)
  | aboveMaximum {k : NumberKind} {n b : Number} (set : s.maximum = some b)
      (h : b.lt n = true) :
      ContentViolation d s path (.number k n)
        (.invalidValue path ("Number is greater than allowed maximum " ++ b.text)
          ("<= " ++ b.text) n.text)
  | notAbove {k : NumberKind} {n b : Number} (set : s.exclusiveMinimum = some b)
      (h : n.le b = true) :
      ContentViolation d s path (.number k n)
        (.invalidValue path ("Number must be greater than " ++ b.text) ("> " ++ b.text) n.text)
  | notBelow {k : NumberKind} {n b : Number} (set : s.exclusiveMaximum = some b)
      (h : b.le n = true) :
      ContentViolation d s path (.number k n)
        (.invalidValue path ("Number must be less than " ++ b.text) ("< " ++ b.text) n.text)
  | noMultiple {k : NumberKind} {n b : Number} (set : s.multipleOf = some b)
      (h : n.offMultiple b = true) :
      ContentViolation d s path (.number k n)
        (.invalidValue path ("Number must be a multiple of " ++ b.text)
          ("multiple of " ++ b.text) n.text)
  | notListed {v : Value} {js : List Json} (set : s.enum = some js)
      (h : ∀ j ∈ js, v.equals j = false) :
      ContentViolation d s path v
        (.invalidValue path ("Value must be one of: " ++ ", ".intercalate (js.map Json.text))
          ("one of [" ++ ", ".intercalate (js.map Json.text) ++ "]")
          (v.display Value.displayLimit))

def Violation (e : Setup) (v : Value) (s : Schema) (p : Site) (f : Finding) : Prop :=
  EntryViolation e v s p f ∨ (Entered e v s p ∧ ContentViolation e.dialect s p.path v f)

/-! ### Breaking off -/

/-- What makes a checked pair end everything: a pattern that is refused for more than its syntax,
or a number that cannot be written. -/
inductive BreaksOff (e : Setup) (v : Value) (s : Schema) (p : Site) : Interruption → Prop where
  | pattern {text source : String} {i : Interruption} (entered : Entered e v s p)
      (isText : v.text? = some text) (set : s.pattern = some source)
      (h : Pattern.compile source = .error (.interrupted i)) : BreaksOff e v s p i
  | number {k : NumberKind} {n : Number} (entered : Entered e v s p) (isNumber : v = .number k n)
      (h : n.isWritable = false) : BreaksOff e v s p .numberTooLong

end Conform.Validator
