import Conform.Service.Reply
import Conform.Service.Request
import Conform.Toml.Reader

/-!
The service: one request after another, answered from a shelf of samples and an engine with the limit
on depth of the settings. What a request changes is only what the shelf remembers.
-/

namespace Conform

structure Service where
  settings : Settings
  shelf : Shelf

namespace Service

def start (s : Settings) : Service := ⟨s, Shelf.ofDirectory s.samplesDirectory⟩

/-- Whether a submission has more bytes than the settings allow. -/
def exceeds (s : Settings) (x : Submission) : Bool :=
  s.maxBytes < ((x.document.utf8ByteSize + x.schema.utf8ByteSize : Nat) : Int)

def validation [Toml.Decoder] (s : Settings) (d : Dialect) (body : String) : Reply :=
  match Submission.read body with
  | .error [] => .unreadableBody
  | .error faults => .badBody faults
  | .ok x =>
    if exceeds s x then .tooLarge s.maxBytes
    else
      match (Engine.ofSettings s).validate d (.text x.document) (.text x.schema) with
      | .ok o => .outcome o
      | .error i => .ofInterruption i

def content (shelf : Shelf) (name : String) : Reply :=
  match Sample.find? name with
  | none => .unknownSample name
  | some s =>
    match shelf.bytes name with
    | .error _ => .missingSample name
    | .ok bs =>
      match Text.Utf8.decode bs with
      | .ok cs => .sample s (String.ofList cs)
      | .error f => .invalid f.message

def sampleReply (s : Sample) : Except LoadFailure Outcome → Reply
  | .ok o => .outcome o
  | .error (.unknown _) => .unknownSample s.name
  | .error (.missing _) => .missingSample s.name
  | .error (.failed (.unreadable role u)) => .outcome (.parseFailure s.dialect (u.message role))
  | .error (.failed (.interrupted i)) => .ofInterruption i

def sampleValidation [Toml.Decoder] (s : Service) (name : String) : Reply × Shelf :=
  match Sample.find? name with
  | none => (.unknownSample name, s.shelf)
  | some sample =>
    let (result, shelf) := s.shelf.validate (.ofSettings s.settings) name
    (sampleReply sample result, shelf)

/-- The state of the samples: whether all their schemas load. -/
def health (shelf : Shelf) : Reply × Shelf :=
  match shelf.loadSchemas Sample.schemas with
  | (.ok (), shelf) => (.health none, shelf)
  | (.error (.failed (.interrupted i)), shelf) => (.ofInterruption i, shelf)
  | (.error f, shelf) => (.health (some f), shelf)

def reply [Toml.Decoder] (s : Service) (body : String) : Resource → Reply × Shelf
  | .about => (.about, s.shelf)
  | .health => health s.shelf
  | .validation d => (validation s.settings d body, s.shelf)
  | .samples => (.samples Sample.all, s.shelf)
  | .sample name => (content s.shelf name, s.shelf)
  | .sampleValidation name => s.sampleValidation name

def answer [Toml.Decoder] (s : Service) (r : Request) : Reply × Service :=
  match r.resource? with
  | none => (.notFound, s)
  | some resource =>
    if r.method.toUpper = resource.method then
      let (reply, shelf) := s.reply r.body resource
      (reply, { s with shelf })
    else (.methodNotAllowed, s)

end Service

end Conform
