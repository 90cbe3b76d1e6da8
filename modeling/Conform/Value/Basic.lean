import Conform.Json.Basic

/-!
Document trees. Both formats are read into one tree whose nodes say what they are. A JSON number
is just a number; TOML tells integers from floats and has dates and times, which are kept as text.
-/

namespace Conform

/-- What a numeric node claims to be. -/
inductive NumberKind where
  | number
  | integer
  | float
  deriving DecidableEq, Repr

inductive TemporalKind where
  | dateTime
  | date
  | time
  deriving DecidableEq, Repr

inductive Kind where
  | object
  | array
  | string
  | numeric (k : NumberKind)
  | boolean
  | null
  | temporal (k : TemporalKind)
  deriving DecidableEq, Repr

/-- A node of a document with all below it. -/
inductive Value where
  | object (members : List (String × Value))
  | array (items : List Value)
  | string (text : String)
  | number (kind : NumberKind) (n : Number)
  | boolean (b : Bool)
  | null
  | temporal (kind : TemporalKind) (text : String)
  deriving Inhabited

def NumberKind.name : NumberKind → String
  | .number => "number"
  | .integer => "integer"
  | .float => "float"

def TemporalKind.name : TemporalKind → String
  | .dateTime => "dateTime"
  | .date => "date"
  | .time => "time"

namespace Kind

def name : Kind → String
  | .object => "object"
  | .array => "array"
  | .string => "string"
  | .numeric k => k.name
  | .boolean => "boolean"
  | .null => "null"
  | .temporal k => k.name

def all : List Kind :=
  [.object, .array, .string, .numeric .number, .numeric .integer, .numeric .float, .boolean, .null,
    .temporal .dateTime, .temporal .date, .temporal .time]

def ofName? (s : String) : Option Kind := all.find? fun k => k.name == s

/-- Whether nodes of the kind are backed by text. -/
def isText : Kind → Bool
  | .string | .temporal _ => true
  | _ => false

def isNumeric : Kind → Bool
  | .numeric _ => true
  | _ => false

end Kind

namespace Value

def kind : Value → Kind
  | .object _ => .object
  | .array _ => .array
  | .string _ => .string
  | .number k _ => .numeric k
  | .boolean _ => .boolean
  | .null => .null
  | .temporal k _ => .temporal k

def text? : Value → Option String
  | .string s | .temporal _ s => some s
  | _ => none

/-- The members of an object; other nodes have none. -/
def members : Value → List (String × Value)
  | .object ms => ms
  | _ => []

/-- The items of an array; other nodes have none. -/
def items : Value → List Value
  | .array vs => vs
  | _ => []

theorem text?_isSome (v : Value) : v.text?.isSome = v.kind.isText := by
  cases v <;> rfl

theorem kind_eq_null_iff {v : Value} : v.kind = .null ↔ v = .null := by
  cases v <;> simp [kind]

/-- What holds of a container as soon as it holds of all that is in it holds of every node, if it
holds of those that contain nothing. -/
@[elab_as_elim]
theorem induction {motive : Value → Prop}
    (object : ∀ ms : List (String × Value), (∀ m ∈ ms, motive m.2) → motive (.object ms))
    (array : ∀ vs : List Value, (∀ v ∈ vs, motive v) → motive (.array vs))
    (string : ∀ s, motive (.string s)) (number : ∀ k n, motive (.number k n))
    (boolean : ∀ b, motive (.boolean b)) (null : motive .null)
    (temporal : ∀ k s, motive (.temporal k s)) : ∀ v, motive v
  | .object ms => object ms fun m _ =>
    induction object array string number boolean null temporal m.2
  | .array vs => array vs fun v _ =>
    induction object array string number boolean null temporal v
  | .string s => string s
  | .number k n => number k n
  | .boolean b => boolean b
  | .null => null
  | .temporal k s => temporal k s
  termination_by v => sizeOf v
  decreasing_by
    · have := List.sizeOf_lt_of_mem ‹m ∈ ms›
      obtain ⟨k, v⟩ := m
      simp only [Prod.mk.sizeOf_spec, Value.object.sizeOf_spec] at this ⊢
      omega
    · have := List.sizeOf_lt_of_mem ‹v ∈ vs›
      simp only [Value.array.sizeOf_spec]
      omega

/-! ### From and to JSON -/

mutual

def ofJson : Json → Value
  | .null => .null
  | .bool b => .boolean b
  | .number n => .number .number n
  | .string s => .string s
  | .array js => .array (ofItems js)
  | .object ms => .object (ofMembers ms)

def ofItems : List Json → List Value
  | [] => []
  | j :: r => ofJson j :: ofItems r

def ofMembers : List (String × Json) → List (String × Value)
  | [] => []
  | (k, j) :: r => (k, ofJson j) :: ofMembers r

end

theorem ofItems_eq_map (js : List Json) : ofItems js = js.map ofJson := by
  induction js with
  | nil => rfl
  | cons j r ih => rw [ofItems, ih, List.map_cons]

theorem ofMembers_eq_map (ms : List (String × Json)) :
    ofMembers ms = ms.map fun m => (m.1, ofJson m.2) := by
  induction ms with
  | nil => rfl
  | cons m r ih => rw [ofMembers, ih, List.map_cons]

mutual

/-- The data of a tree without its kinds. -/
def toJson : Value → Json
  | .null => .null
  | .boolean b => .bool b
  | .number _ n => .number n
  | .string s | .temporal _ s => .string s
  | .array vs => .array (toItems vs)
  | .object ms => .object (toMembers ms)

def toItems : List Value → List Json
  | [] => []
  | v :: r => toJson v :: toItems r

def toMembers : List (String × Value) → List (String × Json)
  | [] => []
  | (k, v) :: r => (k, toJson v) :: toMembers r

end

/-! ### Equality with literals -/

mutual

/-- Whether a node equals a literal. Numbers are compared by value, text-backed nodes by text,
objects by their keys in any order; nothing equals a literal of another sort. -/
def equals : Value → Json → Bool
  | .null, .null => true
  | .boolean b, .bool c => b == c
  | .number _ n, .number m => n.eqv m
  | .string s, .string t => s == t
  | .temporal _ s, .string t => s == t
  | .array vs, .array js => equalItems vs js
  | .object ms, .object js => ms.length == js.length && equalMembers ms js
  | _, _ => false

def equalItems : List Value → List Json → Bool
  | [], [] => true
  | v :: r, j :: s => equals v j && equalItems r s
  | _, _ => false

def equalMembers : List (String × Value) → List (String × Json) → Bool
  | [], _ => true
  | (k, v) :: r, js =>
    (match Members.get? js k with
      | some j => equals v j
      | none => false) && equalMembers r js

end

/-- The longest string that is shown whole. -/
def displayLimit : Int := 60

/-- A text cut to its first `n` characters; a negative count leaves off that many at the end. -/
def cut (cs : List Char) (n : Int) : List Char :=
  if 0 ≤ n then cs.take n.toNat else cs.take (cs.length - (-n).toNat)

/-- A node in a few words. Containers are told by their size, and a string above the limit is cut so
that three points fit. -/
def display (limit : Int) : Value → String
  | .object ms => "object with " ++ toString ms.length ++ " keys"
  | .array vs => "array with " ++ toString vs.length ++ " items"
  | .null => "null"
  | .boolean b => if b then "true" else "false"
  | .string s =>
    let cs := s.toList
    let shown := if (cs.length : Int) ≤ limit then cs else cut cs (limit - 3) ++ ['.', '.', '.']
    String.ofList ('"' :: shown ++ ['"'])
  | .number _ n => n.text
  | .temporal _ s => s

end Value

end Conform
