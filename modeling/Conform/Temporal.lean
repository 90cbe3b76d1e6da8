import Conform.Text.Digit

/-!
Written forms of dates and times. A part of fixed length is read from the front of a text and the
rest handed on; a form holds when nothing is left. Digits may be those of any script.
-/

namespace Conform.Temporal

/-- What is left after `n` digits. -/
def digits? : Nat → List Char → Option (List Char)
  | 0, cs => some cs
  | _ + 1, [] => none
  | n + 1, c :: r => if Text.isDigit c.toNat then digits? n r else none

def char? (test : Char → Bool) : List Char → Option (List Char)
  | [] => none
  | c :: r => if test c then some r else none

def date? (cs : List Char) : Option (List Char) := do
  let cs ← digits? 4 cs
  let cs ← char? (· == '-') cs
  let cs ← digits? 2 cs
  let cs ← char? (· == '-') cs
  digits? 2 cs

def clock? (cs : List Char) : Option (List Char) := do
  let cs ← digits? 2 cs
  let cs ← char? (· == ':') cs
  let cs ← digits? 2 cs
  let cs ← char? (· == ':') cs
  digits? 2 cs

/-- What is left after a fraction of a second, if there is one. -/
def fraction (cs : List Char) : List Char :=
  match cs with
  | '.' :: c :: r =>
    if Text.isDigit c.toNat then r.dropWhile (fun d => Text.isDigit d.toNat) else cs
  | cs => cs

/-- Nothing, a letter for the meridian, or hours and minutes with a sign. -/
def isOffset (cs : List Char) : Bool :=
  match cs with
  | [] => true
  | [c] => c == 'Z' || c == 'z'
  | c :: r =>
    (c == '+' || c == '-') &&
      ((digits? 2 r).bind fun r => (char? (· == ':') r).bind fun r => digits? 2 r) == some []

def isDate (s : String) : Bool := date? s.toList == some []

def isTime (s : String) : Bool :=
  match clock? s.toList with
  | some cs => (fraction cs).isEmpty
  | none => false

/-- A date and a time of day with a letter or a blank between, maybe with an offset. -/
def isDateTime (s : String) : Bool :=
  match (date? s.toList).bind fun cs =>
    (char? (fun c => c == 'T' || c == 't' || c == ' ') cs).bind clock? with
  | some cs => isOffset (fraction cs)
  | none => false

end Conform.Temporal
