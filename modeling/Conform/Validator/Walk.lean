import Conform.Dialect
import Conform.Path
import Conform.Validator.Leaf

/-!
Walking a document and a schema together. Every violation is reported in document order. Null is
absent content and is never a violation. A schema that is no schema, too great a depth, an unknown
type or a value of the wrong type ends the checks of a node and all below it, and of nothing else.
-/

namespace Conform.Validator

/-- A dialect and how deep the walk goes; the root is at depth zero. -/
structure Setup where
  dialect : Dialect
  maxDepth : Int
  deriving DecidableEq, Repr

structure Site where
  path : String
  depth : Nat
  inArray : Bool
  deriving DecidableEq, Repr

def Site.ofRoot (path : String) : Site := ⟨path, 0, false⟩

def Site.member (p : Site) (key : String) : Site := ⟨Path.child p.path key, p.depth + 1, false⟩

def Site.item (p : Site) (i : Nat) : Site := ⟨Path.item p.path (i : Int), p.depth + 1, true⟩

/-- What comes of the checks before a node is entered: the findings, and whether it is entered. -/
structure Entry where
  findings : List Finding
  enters : Bool

/-- A text against the written form that a type rule asks for. -/
def formFindings (rule : TypeRule) (path : String) (v : Value) : List Finding :=
  match rule, v.text? with
  | .temporal k, some text =>
    if k.holds text then [] else [.invalidDateTime path k.form text]
  | _, _ => []

def typeFindings (d : Dialect) (type : String) (p : Site) (v : Value) : List Finding :=
  match d.rule? type with
  | none => [.other p.path ("Unrecognized schema type '" ++ type ++ "'")]
  | some rule =>
    if rule.accepts d v then formFindings rule p.path v
    else [.invalidType p.path type (d.kindName v.kind) p.inArray]

def malformedFindings (s : Schema) (path : String) : List Finding :=
  s.malformed.map fun k => .other path ("Malformed schema keyword '" ++ k ++ "'")

def entry (e : Setup) (v : Value) (s : Schema) (p : Site) : Entry :=
  if v.kind = .null then ⟨[], false⟩
  else
    match s.shapeError with
    | some error => ⟨[.other p.path error], false⟩
    | none =>
      if e.maxDepth < (p.depth : Int) then
        ⟨[.other p.path ("Maximum nesting depth of " ++ toString e.maxDepth ++ " exceeded")], false⟩
      else
        let malformed := malformedFindings s p.path
        match s.type with
        | none => ⟨malformed, true⟩
        | some type =>
          let wrong := typeFindings e.dialect type p v
          ⟨malformed ++ wrong, wrong.isEmpty⟩

/-- A required member that is missing, as a table where the dialect reports tables and the schema
declares one. -/
def missingFinding (d : Dialect) (s : Schema) (path name : String) : Finding :=
  let place := Path.child path name
  match s.property? name with
  | some t =>
    if d.reportsTables && t.declaresTable then .tableNotFound place name
    else .missingProperty place name
  | none => .missingProperty place name

def missingFindings (d : Dialect) (s : Schema) (path : String) (ms : List (String × Value)) :
    List Finding :=
  (s.required.filter fun name => (Members.get? ms name).isNone).map (missingFinding d s path)

/-- A member that no property declares. -/
def undeclaredFindings (s : Schema) (path key : String) : List Finding :=
  if s.additionalProperties == some false then
    [.other (Path.child path key) ("Additional property '" ++ key ++ "' not allowed")]
  else []

/-- The notices of a node, given those of what is in it. -/
def around (e : Setup) (v : Value) (s : Schema) (p : Site) (inside : Unit → List Notice) :
    List Notice :=
  let entry := entry e v s p
  Notice.ofFindings entry.findings ++
    if entry.enters then inside () ++ Notice.ofFindings (enumFindings s p.path v) else []

mutual

/-- The notices of a node and of all below it. -/
def walk (e : Setup) : Value → Schema → Site → List Notice
  | .object ms, s, p =>
    around e (.object ms) s p fun _ =>
      Notice.ofFindings (missingFindings e.dialect s p.path ms) ++ walkMembers e ms s p
  | .array vs, s, p =>
    around e (.array vs) s p fun _ =>
      Notice.ofFindings (sizeFindings s p.path vs.length) ++
        match s.items with
        | some t => walkItems e vs t p 0
        | none => []
  | .string text, s, p =>
    around e (.string text) s p fun _ =>
      textNotices s p.path text ((Value.string text).display Value.displayLimit)
  | .temporal k text, s, p =>
    around e (.temporal k text) s p fun _ =>
      textNotices s p.path text ((Value.temporal k text).display Value.displayLimit)
  | .number k n, s, p =>
    around e (.number k n) s p fun _ => numberNotices s p.path n
  | .boolean b, s, p => around e (.boolean b) s p fun _ => []
  | .null, s, p => around e .null s p fun _ => []

def walkMembers (e : Setup) : List (String × Value) → Schema → Site → List Notice
  | [], _, _ => []
  | (key, v) :: r, s, p =>
    (match s.property? key with
      | some t => walk e v t (p.member key)
      | none => Notice.ofFindings (undeclaredFindings s p.path key)) ++ walkMembers e r s p

/-- The notices of the items from index `i` on; all have one schema. -/
def walkItems (e : Setup) : List Value → Schema → Site → (i : Nat) → List Notice
  | [], _, _, _ => []
  | v :: r, t, p, i => walk e v t (p.item i) ++ walkItems e r t p (i + 1)

end

/-- Every violation, in document order. -/
def validate (e : Setup) (v : Value) (s : Schema) (path : String) :
    Except Interruption (List Finding) :=
  Notice.gather (walk e v s (Site.ofRoot path))

def name (d : Dialect) : String := d.name ++ "-schema-validator"

end Conform.Validator
