import Conform.Json.Basic

/-!
Schemas: the keywords that are understood, read from decoded JSON. Reading never fails. A keyword
whose setting has the wrong shape is listed as malformed and otherwise left out; a fragment that
is no object becomes a schema that says so. Keywords that are not understood are passed over.
-/

namespace Conform

/-- A schema with the schemas below it. A keyword that is absent leaves its field at the default. -/
structure Schema where
  type : Option String := none
  properties : List (String × Schema) := []
  required : List String := []
  additionalProperties : Option Bool := none
  items : Option Schema := none
  minItems : Option Nat := none
  maxItems : Option Nat := none
  minLength : Option Nat := none
  maxLength : Option Nat := none
  pattern : Option String := none
  minimum : Option Number := none
  maximum : Option Number := none
  exclusiveMinimum : Option Number := none
  exclusiveMaximum : Option Number := none
  multipleOf : Option Number := none
  enum : Option (List Json) := none
  /-- Keywords that are present and unusable, in the order of the schema. -/
  malformed : List String := []
  /-- What is wrong with a fragment that is no object. -/
  shapeError : Option String := none
  deriving Inhabited

namespace Schema

def string? : Json → Option String
  | .string s => some s
  | _ => none

def bool? : Json → Option Bool
  | .bool b => some b
  | _ => none

def number? : Json → Option Number
  | .number n => some n
  | _ => none

/-- A number above zero; not-a-number is not turned away. -/
def divisor? : Json → Option Number
  | .number n => if n.le (.int 0) then none else some n
  | _ => none

/-- A whole number from zero on, with or without a fraction of zeros. -/
def count? : Json → Option Nat
  | .number n => n.toInt?.bind fun i => if 0 ≤ i then some i.toNat else none
  | _ => none

def list? : Json → Option (List Json)
  | .array js => some js
  | _ => none

def strings? : Json → Option (List String)
  | .array js => js.mapM string?
  | _ => none

def isObject : Json → Bool
  | .object _ => true
  | _ => false

/-! ### Keywords -/

inductive Keyword where
  | type
  | properties
  | required
  | additionalProperties
  | items
  | minItems
  | maxItems
  | minLength
  | maxLength
  | pattern
  | minimum
  | maximum
  | exclusiveMinimum
  | exclusiveMaximum
  | multipleOf
  | enum
  deriving DecidableEq, Repr

namespace Keyword

def name : Keyword → String
  | .type => "type"
  | .properties => "properties"
  | .required => "required"
  | .additionalProperties => "additionalProperties"
  | .items => "items"
  | .minItems => "minItems"
  | .maxItems => "maxItems"
  | .minLength => "minLength"
  | .maxLength => "maxLength"
  | .pattern => "pattern"
  | .minimum => "minimum"
  | .maximum => "maximum"
  | .exclusiveMinimum => "exclusiveMinimum"
  | .exclusiveMaximum => "exclusiveMaximum"
  | .multipleOf => "multipleOf"
  | .enum => "enum"

def all : List Keyword :=
  [.type, .properties, .required, .additionalProperties, .items, .minItems, .maxItems, .minLength,
    .maxLength, .pattern, .minimum, .maximum, .exclusiveMinimum, .exclusiveMaximum, .multipleOf,
    .enum]

def ofName? (s : String) : Option Keyword := all.find? fun k => k.name == s

/-- Whether a setting has the shape that the keyword asks for. -/
def fits : Keyword → Json → Bool
  | .type, j | .pattern, j => (string? j).isSome
  | .properties, j | .items, j => isObject j
  | .required, j => (strings? j).isSome
  | .additionalProperties, j => (bool? j).isSome
  | .minItems, j | .maxItems, j | .minLength, j | .maxLength, j => (count? j).isSome
  | .minimum, j | .maximum, j | .exclusiveMinimum, j | .exclusiveMaximum, j => (number? j).isSome
  | .multipleOf, j => (divisor? j).isSome
  | .enum, j => (list? j).isSome

end Keyword

/-! ### Reading -/

/-- The setting of a keyword in the shape that a reader asks for. -/
def setting? {α : Type} (ms : List (String × Json)) (k : Keyword) (read : Json → Option α) :
    Option α :=
  (Members.get? ms k.name).bind read

/-- The understood keywords with settings of the wrong shape. -/
def malformedIn (ms : List (String × Json)) : List String :=
  ms.filterMap fun (k, j) =>
    match Keyword.ofName? k with
    | some keyword => if keyword.fits j then none else some k
    | none => none

/-- The word for what a fragment is when it is no object. -/
def sort : Json → String
  | .null => "NoneType"
  | .bool _ => "bool"
  | .number (.int _) => "int"
  | .number (.double _) => "float"
  | .string _ => "str"
  | .array _ => "array"
  | .object _ => "object"

mutual

def ofJson : Json → Schema
  | .object ms =>
    { type := setting? ms .type string?
      properties := propertiesIn ms
      required := (setting? ms .required strings?).getD []
      additionalProperties := setting? ms .additionalProperties bool?
      items := itemsIn ms
      minItems := setting? ms .minItems count?
      maxItems := setting? ms .maxItems count?
      minLength := setting? ms .minLength count?
      maxLength := setting? ms .maxLength count?
      pattern := setting? ms .pattern string?
      minimum := setting? ms .minimum number?
      maximum := setting? ms .maximum number?
      exclusiveMinimum := setting? ms .exclusiveMinimum number?
      exclusiveMaximum := setting? ms .exclusiveMaximum number?
      multipleOf := setting? ms .multipleOf divisor?
      enum := setting? ms .enum list?
      malformed := malformedIn ms }
  | j => { shapeError := some ("Schema fragment must be an object, found " ++ sort j) }

/-- The schemas of the properties, if the keyword is there and holds an object. -/
def propertiesIn : List (String × Json) → List (String × Schema)
  | [] => []
  | (k, j) :: r =>
    if k = Keyword.properties.name then
      match j with
      | .object ms => ofMembers ms
      | _ => []
    else propertiesIn r

def itemsIn : List (String × Json) → Option Schema
  | [] => none
  | (k, j) :: r =>
    if k = Keyword.items.name then if isObject j then some (ofJson j) else none else itemsIn r

def ofMembers : List (String × Json) → List (String × Schema)
  | [] => []
  | (k, j) :: r => (k, ofJson j) :: ofMembers r

end

def declaresTable (s : Schema) : Bool := s.type == some "table" || s.type == some "object"

def property? (s : Schema) (name : String) : Option Schema := Members.get? s.properties name

end Schema

end Conform
