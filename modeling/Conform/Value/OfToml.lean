import Conform.Toml.Basic
import Conform.Value.Basic

/-!
The document trees of TOML values. Dates and times are kept in their written form.
-/

namespace Conform.Value

mutual

def ofToml : Toml.Item → Value
  | .bool b => .boolean b
  | .int n => .number .integer (.int n)
  | .float x => .number .float (.double x)
  | .string s => .string s
  | .dateTime t => .temporal .dateTime t.text
  | .date d => .temporal .date d.text
  | .time t => .temporal .time t.text
  | .array is => .array (ofTomlItems is)
  | .table ms => .object (ofTomlMembers ms)

def ofTomlItems : List Toml.Item → List Value
  | [] => []
  | i :: r => ofToml i :: ofTomlItems r

def ofTomlMembers : List (String × Toml.Item) → List (String × Value)
  | [] => []
  | (k, i) :: r => (k, ofToml i) :: ofTomlMembers r

end

end Conform.Value
