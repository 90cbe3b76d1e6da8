import Conform.Interruption
import Conform.Number.Numeral
import Conform.Members

/-!
TOML values, and what reads them. Dates and times are those of the calendar and are written in their
extended form, with six digits of a second's fraction unless it is zero.
-/

namespace Conform.Toml

def isLeap (year : Nat) : Bool := year % 4 == 0 && (year % 100 != 0 || year % 400 == 0)

def daysIn (year month : Nat) : Nat :=
  if month = 2 then (if isLeap year then 29 else 28)
  else if month = 4 || month = 6 || month = 9 || month = 11 then 30
  else 31

/-- A day of the calendar, which begins with the year one. -/
structure Date where
  year : Nat
  month : Nat
  day : Nat
  valid : 1 ≤ year ∧ year ≤ 9999 ∧ 1 ≤ month ∧ month ≤ 12 ∧ 1 ≤ day ∧ day ≤ daysIn year month
  deriving DecidableEq, Repr

/-- A time of day; there are no leap seconds. -/
structure Time where
  hour : Nat
  minute : Nat
  second : Nat
  microsecond : Nat
  valid : hour < 24 ∧ minute < 60 ∧ second < 60 ∧ microsecond < 1000000
  deriving DecidableEq, Repr

/-- Minutes from the meridian, less than a day of them. -/
structure Offset where
  minutes : Int
  valid : minutes.natAbs < 24 * 60
  deriving DecidableEq, Repr

structure DateTime where
  date : Date
  time : Time
  offset : Option Offset := none
  deriving DecidableEq, Repr

inductive Item where
  | bool (b : Bool)
  | int (n : Int)
  | float (x : Binary64)
  | string (s : String)
  | dateTime (t : DateTime)
  | date (d : Date)
  | time (t : Time)
  | array (items : List Item)
  | table (members : List (String × Item))
  deriving Inhabited

/-- At least `width` decimal digits. -/
def padded (width n : Nat) : String :=
  let ds := Nat.toDigits 10 n
  String.ofList (List.replicate (width - ds.length) '0' ++ ds)

def Date.text (d : Date) : String :=
  padded 4 d.year ++ "-" ++ padded 2 d.month ++ "-" ++ padded 2 d.day

def Time.text (t : Time) : String :=
  padded 2 t.hour ++ ":" ++ padded 2 t.minute ++ ":" ++ padded 2 t.second ++
    if t.microsecond = 0 then "" else "." ++ padded 6 t.microsecond

def Offset.text (o : Offset) : String :=
  let n := o.minutes.natAbs
  (if o.minutes < 0 then "-" else "+") ++ padded 2 (n / 60) ++ ":" ++ padded 2 (n % 60)

def DateTime.text (t : DateTime) : String :=
  t.date.text ++ "T" ++ t.time.text ++
    match t.offset with
    | some o => o.text
    | none => ""

namespace Item

mutual

/-- The number of containers around the innermost value. -/
def depth : Item → Nat
  | .array items => depthOfItems items + 1
  | .table members => depthOfMembers members + 1
  | _ => 0

def depthOfItems : List Item → Nat
  | [] => 0
  | i :: r => max (depth i) (depthOfItems r)

def depthOfMembers : List (String × Item) → Nat
  | [] => 0
  | (_, i) :: r => max (depth i) (depthOfMembers r)

end

/-- The shapes that the items of one array share. A date may stand beside a date with a time. -/
inductive Shape where
  | bool
  | int
  | float
  | string
  | date
  | time
  | array
  | table
  deriving DecidableEq

def shape : Item → Shape
  | .bool _ => .bool
  | .int _ => .int
  | .float _ => .float
  | .string _ => .string
  | .dateTime _ | .date _ => .date
  | .time _ => .time
  | .array _ => .array
  | .table _ => .table

/-- The word for what a value is when it is asked to be an array. -/
def sort : Item → String
  | .bool _ => "bool"
  | .int _ => "int"
  | .float _ => "float"
  | .string _ => "str"
  | .dateTime _ => "datetime.datetime"
  | .date _ => "datetime.date"
  | .time _ => "datetime.time"
  | .array _ => "list"
  | .table _ => "DynamicInlineTableDict"

def sameShape : List Item → Bool
  | [] => true
  | i :: r => r.all fun j => j.shape == i.shape

end Item

/-! ### Reading -/

/-- What ends the decoding of a text: an error of some sort, with what it says, if it says anything,
or a tree that cannot be written out. -/
inductive Fault where
  | decodeError (words : Option String)
  | typeError (words : Option String)
  | indexError (words : Option String)
  | valueError (words : Option String)
  | recursionError
  /-- An error of any other sort. -/
  | other (i : Interruption)
  /-- There is a tree, but a date-time in it has an offset of a day or more, so it has no text. -/
  | unwritable (i : Interruption)
  deriving DecidableEq, Repr

/-- A decoder of TOML. It is not part of the library, and documents are read with any. -/
class Decoder where
  decode : List Char → Except Fault Item

end Conform.Toml
