import Conform.Number.Numeral
import Conform.Text.Blank

/-!
Settings of the service, read from an environment. A setting whose name is absent keeps its
standard value; all settings whose texts do not read are reported together.
-/

namespace Conform

/-- Names with texts. The case of a name does not count, and of equal names the last does. -/
abbrev Environment := List (String × String)

namespace Environment

def get? (env : Environment) (name : String) : Option String :=
  ((env.filter fun p => p.1.toUpper == name).getLast?).map (·.2)

end Environment

structure Settings where
  host : String := "0.0.0.0"
  port : Int := 8000
  debug : Bool := false
  logLevel : String := "info"
  /-- How deep a validation goes. -/
  maxDepth : Int := 256
  /-- The most bytes of a document and its schema together. -/
  maxBytes : Int := 1048576
  /-- Where the samples are; the bundled ones have the empty name. -/
  samplesDirectory : String := ""
  deriving DecidableEq, Repr, Inhabited

namespace Settings

/-- A truth value in words or digits, in any case. -/
def readBool? (text : String) : Option Bool :=
  let word := text.toLower
  if ["true", "t", "yes", "y", "on", "1"].contains word then some true
  else if ["false", "f", "no", "n", "off", "0"].contains word then some false
  else none

/-- A decimal integer. There may be blanks around it, underscores between its digits, and zeros
after a point. -/
def readInt? (text : String) : Option Int := do
  let (negative, r) := spanSign (Text.trim text.toList)
  let fraction := (r.dropWhile (· != '.')).drop 1
  if !fraction.all (· == '0') then none
  let ds ← groupedDigits? (fun c => if c.isDigit then some c else none) (r.takeWhile (· != '.'))
  let n : Int := digitsValue ds
  pure (if negative then -n else n)

/-- A setting by name, and how a text changes it. -/
structure Field where
  name : String
  put : String → Settings → Option Settings

def fields : List Field :=
  [⟨"DEBUG", fun text s => (readBool? text).map fun b => { s with debug := b }⟩,
   ⟨"HOST", fun text s => some { s with host := text }⟩,
   ⟨"LOG_LEVEL", fun text s => some { s with logLevel := text }⟩,
   ⟨"MAX_DOCUMENT_BYTES", fun text s => (readInt? text).map fun n => { s with maxBytes := n }⟩,
   ⟨"MAX_VALIDATION_DEPTH", fun text s => (readInt? text).map fun n => { s with maxDepth := n }⟩,
   ⟨"PORT", fun text s => (readInt? text).map fun n => { s with port := n }⟩,
   ⟨"SAMPLES_DIR", fun text s => some { s with samplesDirectory := text }⟩]

/-- Reads some of the settings: the settings after it, and the names of those that do not read. -/
def readFields (env : Environment) : List Field → Settings → Settings × List String
  | [], s => (s, [])
  | f :: r, s =>
    match env.get? f.name with
    | none => readFields env r s
    | some text =>
      match f.put text s with
      | some s => readFields env r s
      | none =>
        let (s, faults) := readFields env r s
        (s, f.name :: faults)

/-- The settings of an environment, or the names of those that do not read, in order. -/
def ofEnvironment (env : Environment) : Except (List String) Settings :=
  match readFields env fields {} with
  | (s, []) => .ok s
  | (_, faults) => .error faults

end Settings

end Conform
