import Conform.Temporal
import Conform.Value.Basic

/-!
Dialects: what differs between the two document formats. A dialect has its own type names, its own
words for kinds in messages, and its own way to report a missing table; all other rules are
common.
-/

namespace Conform

inductive Dialect where
  | json
  | toml
  deriving DecidableEq, Repr, Inhabited

/-- What a type name asks of a value. -/
inductive TypeRule where
  | object
  | table
  | array
  | string
  | number
  | integer
  | float
  | boolean
  | null
  | any
  | temporal (k : TemporalKind)
  deriving DecidableEq, Repr

namespace TypeRule

def name : TypeRule → String
  | .object => "object"
  | .table => "table"
  | .array => "array"
  | .string => "string"
  | .number => "number"
  | .integer => "integer"
  | .float => "float"
  | .boolean => "boolean"
  | .null => "null"
  | .any => "any"
  | .temporal k => k.name

def common : List TypeRule :=
  [.object, .table, .array, .string, .number, .integer, .float, .boolean, .null, .any]

def temporals : List TypeRule := [.temporal .dateTime, .temporal .date, .temporal .time]

end TypeRule

namespace Dialect

def name : Dialect → String
  | .json => "json"
  | .toml => "toml"

def all : List Dialect := [.json, .toml]

def ofName? (s : String) : Option Dialect := all.find? fun d => d.name == s

/-- The rules whose names a schema may use. -/
def rules : Dialect → List TypeRule
  | .json => TypeRule.common
  | .toml => TypeRule.common ++ TypeRule.temporals

def rule? (d : Dialect) (name : String) : Option TypeRule := d.rules.find? fun r => r.name == name

/-- The word for a kind in messages. -/
def kindName (d : Dialect) (k : Kind) : String :=
  match d, k with
  | .toml, .object => "table"
  | _, k => k.name

def reportsTables : Dialect → Bool
  | .json => false
  | .toml => true

/-- Whether a numeric node is an integer: in JSON by its value, in TOML by how it is written. -/
def isInteger : Dialect → NumberKind → Number → Bool
  | .json, k, n => k == .number && n.isWhole
  | .toml, k, _ => k == .integer

/-- Whether a numeric node is a float: in JSON every number is one. -/
def isFloat : Dialect → NumberKind → Bool
  | .json, k => k == .number
  | .toml, k => k == .float

def isNumber : Dialect → NumberKind → Bool
  | .json, k => k == .number
  | .toml, _ => true

end Dialect

namespace TypeRule

/-- Whether a value has the type. Dates and times take every text; their form is another question.
-/
def accepts (d : Dialect) : TypeRule → Value → Bool
  | .any, _ => true
  | .object, v | .table, v => v.kind == .object
  | .array, v => v.kind == .array
  | .string, v => v.kind == .string
  | .boolean, v => v.kind == .boolean
  | .null, v => v.kind == .null
  | .number, .number k _ => d.isNumber k
  | .integer, .number k n => d.isInteger k n
  | .float, .number k _ => d.isFloat k
  | .temporal _, v => v.kind.isText
  | _, _ => false

end TypeRule

namespace TemporalKind

/-- Whether a text has the written form of the kind. -/
def holds : TemporalKind → String → Bool
  | .dateTime, s => Temporal.isDateTime s
  | .date, s => Temporal.isDate s
  | .time, s => Temporal.isTime s

def form : TemporalKind → String
  | .dateTime => "RFC 3339 datetime"
  | .date => "date (YYYY-MM-DD)"
  | .time => "time (HH:MM:SS)"

end TemporalKind

end Conform
