import Conform.Interruption
import Conform.Json.Reader
import Conform.Schema
import Conform.Text.Utf8
import Conform.Value.OfToml

/-!
Reading documents and schemas from text or bytes. Bytes are UTF-8 and may begin with a byte-order
mark. What cannot be read is told with its role; a few inputs end everything instead.
-/

namespace Conform

/-- Where a text comes from. -/
inductive Source where
  | text (s : String)
  | bytes (bs : List UInt8)
  deriving DecidableEq

inductive Role where
  | document
  | schema
  deriving DecidableEq, Repr

namespace Role

def name : Role → String
  | .document => "document"
  | .schema => "schema"

/-- The name at the beginning of a sentence. -/
def title : Role → String
  | .document => "Document"
  | .schema => "Schema"

end Role

/-- Why a source cannot be read. -/
inductive Unreadable where
  | encoding (f : Text.Utf8.Fault)
  /-- A JSON text with what does not fit, the text being kept to tell the place. -/
  | json (cause : Json.Cause) (text : List Char) (position : Nat)
  | toml (words : Option String)
  | tooDeep
  | rootNotObject
  deriving DecidableEq, Repr

namespace Unreadable

def message (role : Role) : Unreadable → String
  | .encoding f => "Cannot decode " ++ role.name ++ " as UTF-8: " ++ f.message
  | .json cause text position => role.title ++ " parsing error: " ++ cause.messageAt text position
  | .toml words => "Failed to parse TOML:" ++ words.elim "" (" " ++ ·)
  | .tooDeep => role.title ++ " is nested too deeply to parse"
  | .rootNotObject => "Invalid JSON Schema format: root must be an object"

end Unreadable

/-- Why there is nothing to work on. -/
inductive Failure where
  | unreadable (role : Role) (u : Unreadable)
  | interrupted (i : Interruption)
  deriving DecidableEq, Repr

def Failure.message : Failure → String
  | .unreadable role u => u.message role
  | .interrupted i => i.message

namespace Source

def decode (role : Role) : Source → Except Failure (List Char)
  | .text s => .ok s.toList
  | .bytes bs =>
    match Text.Utf8.decode (Text.Utf8.withoutMark bs) with
    | .ok cs => .ok cs
    | .error f => .error (.unreadable role (.encoding f))

def readJson (role : Role) (s : Source) : Except Failure Json := do
  let text ← s.decode role
  match Json.parse text with
  | .ok j => pure j
  | .error (.malformed cause position) => throw (.unreadable role (.json cause text position))
  | .error .tooDeep => throw (.unreadable role .tooDeep)
  | .error (.tooManyDigits n) => throw (.interrupted (.tooManyDigits n))

end Source

namespace Document

/-- The most containers around a value of a document. -/
def nestingLimit : Nat := 480

def readJson (s : Source) : Except Failure Value := do
  let j ← s.readJson .document
  if nestingLimit < j.depth then throw (.unreadable .document .tooDeep)
  pure (Value.ofJson j)

def readToml [Toml.Decoder] (s : Source) : Except Failure Value := do
  let text ← s.decode .document
  match Toml.Decoder.decode text with
  | .ok i =>
    if nestingLimit < i.depth then throw (.unreadable .document .tooDeep)
    pure (Value.ofToml i)
  | .error (.decodeError words) | .error (.typeError words) | .error (.indexError words)
  | .error (.valueError words) => throw (.unreadable .document (.toml words))
  | .error .recursionError => throw (.unreadable .document .tooDeep)
  | .error (.other i) | .error (.unwritable i) => throw (.interrupted i)

end Document

namespace Schema

/-- Reads a schema, which is a JSON object. -/
def read (s : Source) : Except Failure Schema := do
  match ← s.readJson .schema with
  | .object ms => pure (ofJson (.object ms))
  | _ => throw (.unreadable .schema .rootNotObject)

end Schema

end Conform
