import Conform.Json.Reader

/-!
Submissions: a document and a schema to validate it against, as two texts in the body of a
request. Each part that is missing or no text is told.
-/

namespace Conform.Service

structure Submission where
  document : String
  schema : String
  deriving DecidableEq, Repr

inductive BodyFault where
  | missing
  | notJson (position : Nat)
  | notObject
  | missingMember (name : String)
  | notText (name : String)
  deriving DecidableEq, Repr

namespace BodyFault

def type : BodyFault → String
  | .missing | .missingMember _ => "missing"
  | .notJson _ => "json_invalid"
  | .notObject => "model_attributes_type"
  | .notText _ => "string_type"

def place : BodyFault → List Json
  | .missing | .notObject => [.string "body"]
  | .notJson position => [.string "body", .number (.int position)]
  | .missingMember name | .notText name => [.string "body", .string name]

end BodyFault

namespace Submission

/-- The text of the first of these names that an object has. -/
def member (ms : Members Json) (name : String) (others : List String) : Except BodyFault String :=
  match (name :: others).find? fun n => (Members.get? ms n).isSome with
  | none => .error (.missingMember name)
  | some n =>
    match Members.get? ms n with
    | some (.string text) => .ok text
    | _ => .error (.notText n)

/-- The parts of a submission. Other members are let be. -/
def ofMembers (ms : Members Json) : Except (List BodyFault) Submission :=
  match member ms "document" [], member ms "schema" ["schema_text"] with
  | .ok document, .ok schema => .ok ⟨document, schema⟩
  | .error f, .ok _ => .error [f]
  | .ok _, .error g => .error [g]
  | .error f, .error g => .error [f, g]

/-- Reads a body. Its faults are none when it is JSON beyond what is read. -/
def read (body : String) : Except (List BodyFault) Submission :=
  let text := match body.toList with
    | '\ufeff' :: r => r
    | cs => cs
  if body.isEmpty then .error [.missing]
  else
    match Json.parse text with
    | .ok .null => .error [.missing]
    | .ok (.object ms) => ofMembers ms
    | .ok _ => .error [.notObject]
    | .error (.malformed _ position) => .error [.notJson position]
    | .error _ => .error []

end Submission

end Conform.Service
