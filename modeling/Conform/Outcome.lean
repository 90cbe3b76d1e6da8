import Conform.Dialect
import Conform.Finding

/-!
Outcomes: the value that was valid, or the findings, with a tally of their kinds and a report in
which each finding has a numbered line.
-/

namespace Conform

/-- The result of a validation. -/
structure Outcome where
  dialect : Dialect
  value : Option Value := none
  findings : List Finding := []
  deriving Inhabited

namespace Dialect

/-- The name of the format in reports. -/
def label : Dialect → String
  | .json => "JSON"
  | .toml => "TOML"

end Dialect

namespace Outcome

def success (d : Dialect) (v : Value) : Outcome := { dialect := d, value := some v }

def failure (d : Dialect) (fs : List Finding) : Outcome := { dialect := d, findings := fs }

/-- The outcome when something could not be read. -/
def parseFailure (d : Dialect) (message : String) : Outcome := failure d [.parseError message]

def ok (o : Outcome) : Bool := o.findings.isEmpty

/-- Counts one more of a kind; a new kind goes to the end. -/
def count (k : FindingKind) : List (FindingKind × Nat) → List (FindingKind × Nat)
  | [] => [(k, 1)]
  | (l, n) :: r => if l = k then (l, n + 1) :: r else (l, n) :: count k r

/-- The number of findings of each kind, in the order in which the kinds first appear. -/
def tally (fs : List Finding) : List (FindingKind × Nat) := fs.foldl (fun t f => count f.kind t) []

/-- The numbered line of a finding. -/
def line (i : Nat) (f : Finding) : String :=
  "[" ++ toString i ++ "] " ++ f.display ++
    match f.expected, f.found with
    | some e, some g => " (expected: " ++ e ++ ", found: " ++ g ++ ")"
    | _, _ => ""

/-- The lines of findings, numbered from `i` on. -/
def lines (i : Nat) : List Finding → List String
  | [] => []
  | f :: r => line i f :: lines (i + 1) r

/-- The first line of a report with findings. -/
def header (d : Dialect) (count : Nat) : String :=
  d.label ++ " schema validation failed with " ++ toString count ++ " error(s):"

/-- The whole outcome in words. -/
def report (o : Outcome) : String :=
  if o.ok then "Validation successful. " ++ o.dialect.label ++ " is valid according to the schema."
  else "\n".intercalate (header o.dialect o.findings.length :: lines 1 o.findings)

@[simp] theorem ok_success (d : Dialect) (v : Value) : (success d v).ok = true := rfl

@[simp] theorem ok_parseFailure (d : Dialect) (m : String) : (parseFailure d m).ok = false := rfl

end Outcome

end Conform
