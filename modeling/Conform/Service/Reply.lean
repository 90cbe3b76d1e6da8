import Conform.Sample.Shelf
import Conform.Service.Submission

/-!
Replies of the service: their status, and their body as JSON. A validation that found violations,
or could not read what it was given, is a reply like any other.
-/

namespace Conform.Service

inductive Reply where
  | about
  | health (failure : Option LoadFailure)
  | outcome (o : Outcome)
  | samples (ss : List Sample)
  | sample (s : Sample) (content : String)
  | notFound
  | methodNotAllowed
  | unknownSample (name : String)
  | missingSample (name : String)
  | tooLarge (limit : Int)
  | badBody (faults : List BodyFault)
  | unreadableBody
  | invalid (message : String)
  | failed

def version : String := "1.0.0"

namespace Reply

/-- The reply when nothing can be answered. -/
def ofInterruption (i : Interruption) : Reply :=
  if i.isInvalidInput then .invalid i.message else .failed

def status : Reply → Nat
  | .about | .health _ | .outcome _ | .samples _ | .sample _ _ => 200
  | .unreadableBody => 400
  | .notFound | .unknownSample _ | .missingSample _ => 404
  | .methodNotAllowed => 405
  | .tooLarge _ => 413
  | .badBody _ | .invalid _ => 422
  | .failed => 500

def detail (text : String) : Json := .object [("detail", .string text)]

def optionalText : Option String → Json
  | some s => .string s
  | none => .null

def findingBody (f : Finding) : Json :=
  .object [
    ("kind", .string f.kind.name), ("path", .string f.path), ("message", .string f.message),
    ("expected", optionalText f.expected), ("found", optionalText f.found)]

/-- The valid value, in which a number that JSON lacks is null. -/
def valueBody (o : Outcome) : Json :=
  match o.value with
  | some v => v.toJson.finite
  | none => .null

def outcomeBody (o : Outcome) : Json :=
  .object [
    ("valid", .bool o.ok), ("format", .string o.dialect.name), ("value", valueBody o),
    ("errors", .array (o.findings.map findingBody)),
    ("summary", .object ((Outcome.tally o.findings).map fun (k, n) => (k.name, .number (.int n)))),
    ("report", .string o.report)]

def sampleBody (s : Sample) (content : Option String) : Json :=
  .object [
    ("name", .string s.name), ("schema_name", .string s.schema),
    ("format", .string s.dialect.name), ("content", optionalText content)]

def healthBody (failure : Option LoadFailure) : Json :=
  let state := Json.string (if failure.isNone then "healthy" else "degraded")
  .object [
    ("status", state), ("version", .string version),
    ("dependencies", .object [
      ("samples", .object [
        ("status", state), ("message", optionalText (failure.map LoadFailure.message))])])]

def body : Reply → Json
  | .about =>
    .object [
      ("name", .string "SchemaLab"), ("version", .string version),
      ("description", .string "JSON and TOML schema validation"), ("docs", .string "/docs"),
      ("health", .string "/api/v1/health")]
  | .health failure => healthBody failure
  | .outcome o => outcomeBody o
  | .samples ss => .array (ss.map fun s => sampleBody s none)
  | .sample s content => sampleBody s (some content)
  | .notFound => detail "Not Found"
  | .methodNotAllowed => detail "Method Not Allowed"
  | .unknownSample name => detail ("Sample '" ++ name ++ "' not found")
  | .missingSample name => detail ("Sample file for '" ++ name ++ "' is missing")
  | .tooLarge limit => detail ("Document and schema exceed " ++ toString limit ++ " bytes")
  | .badBody faults =>
    .object [
      ("detail", .array (faults.map fun f =>
        .object [("type", .string f.type), ("loc", .array f.place)]))]
  | .unreadableBody => detail "There was an error parsing the body"
  | .invalid message =>
    .object [("error", .string "validation_error"), ("message", .string message)]
  | .failed =>
    .object [
      ("error", .string "internal_server_error"),
      ("message", .string "An unexpected error occurred. Please try again.")]

end Reply

end Conform.Service
