import Conform.Document
import Conform.Outcome
import Conform.Settings
import Conform.Validator.Walk

/-!
Validation from source to outcome. The document is read first, then the schema; what cannot be
read is the only finding of the outcome.
-/

namespace Conform

/-- Validation with a limit on depth. -/
structure Engine where
  maxDepth : Int
  deriving DecidableEq, Repr

namespace Dialect

def readDocument [Toml.Decoder] : Dialect → Source → Except Failure Value
  | .json => Document.readJson
  | .toml => Document.readToml

end Dialect

namespace Engine

def ofSettings (s : Settings) : Engine := ⟨s.maxDepth⟩

/-- The engine of the standard settings. -/
def standard : Engine := ofSettings {}

def setup (e : Engine) (d : Dialect) : Validator.Setup := ⟨d, e.maxDepth⟩

def validateParsed (e : Engine) (d : Dialect) (v : Value) (s : Schema) :
    Except Interruption Outcome :=
  match Validator.validate (e.setup d) v s Path.root with
  | .ok [] => .ok (.success d v)
  | .ok fs => .ok (.failure d fs)
  | .error i => .error i

/-- Reads a document and its schema, the document first. -/
def read [Toml.Decoder] (d : Dialect) (document schema : Source) :
    Except Failure (Value × Schema) := do
  let v ← d.readDocument document
  let s ← Schema.read schema
  pure (v, s)

def validate [Toml.Decoder] (e : Engine) (d : Dialect) (document schema : Source) :
    Except Interruption Outcome :=
  match read d document schema with
  | .ok (v, s) => e.validateParsed d v s
  | .error (.unreadable role u) => .ok (.parseFailure d (u.message role))
  | .error (.interrupted i) => .error i

end Engine

end Conform
