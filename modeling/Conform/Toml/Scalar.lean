import Conform.Text.Hex
import Conform.Toml.Basic

/-!
TOML scalars: strings in their four forms, and the words that stand for truth values, numbers,
dates and times. A word is read whole or not at all.
-/

namespace Conform.Toml

def isBlank (c : Char) : Bool := c = ' ' || c = '\t'

/-- Control characters, the tab apart, stand nowhere. -/
def isControl (c : Char) : Bool := (c.toNat < 0x20 && c != '\t') || c.toNat = 0x7f

def skipBlanks (cs : List Char) : List Char := cs.dropWhile isBlank

def lineBreak? : List Char → Option (List Char)
  | '\n' :: r => some r
  | '\r' :: '\n' :: r => some r
  | _ => none

/-! ### Strings -/

def control? : Char → Option Char
  | 'b' => some '\x08'
  | 't' => some '\t'
  | 'n' => some '\n'
  | 'f' => some '\x0c'
  | 'r' => some '\r'
  | '"' => some '"'
  | '\\' => some '\\'
  | _ => none

/-- A character by its code, in just so many hexadecimal digits. -/
def codeEscape? (count : Nat) (cs : List Char) : Option (Char × List Char) := do
  let ds := cs.take count
  if ds.length ≠ count then none
  let n ← ds.foldlM (fun n d => (Text.hexValue? d).map (16 * n + ·)) 0
  if h : n.isValidChar then pure (Char.ofNatAux n h, cs.drop count) else none

def escape? : List Char → Option (Char × List Char)
  | 'u' :: r => codeEscape? 4 r
  | 'U' :: r => codeEscape? 8 r
  | c :: r => (control? c).map (·, r)
  | [] => none

/-- A basic string after its quote, with the characters so far in reverse. -/
def basicFrom : (fuel : Nat) → (cs done : List Char) → Option (String × List Char)
  | 0, _, _ => none
  | fuel + 1, cs, done =>
    match cs with
    | [] => none
    | '"' :: r => some (String.ofList done.reverse, r)
    | '\\' :: r =>
      match escape? r with
      | some (c, r) => basicFrom fuel r (c :: done)
      | none => none
    | c :: r => if isControl c then none else basicFrom fuel r (c :: done)

def literal? (cs : List Char) : Option (String × List Char) :=
  let body := cs.takeWhile fun c => c != '\'' && !isControl c
  match cs.drop body.length with
  | '\'' :: r => some (String.ofList body, r)
  | _ => none

/-- The quotes that end a string of several lines: three, with at most two more before them. -/
def closing? (quote : Char) (cs : List Char) : Option (List Char × List Char) :=
  let n := (cs.takeWhile (· == quote)).length
  if 3 ≤ n && n ≤ 5 then some (List.replicate (n - 3) quote, cs.drop n) else none

/-- What follows a backslash at the end of a line: the blanks and line breaks after it are
dropped. -/
def continuation? (cs : List Char) : Option (List Char) :=
  match lineBreak? (skipBlanks cs) with
  | some r => some (r.dropWhile fun c => isBlank c || c = '\n' || c = '\r')
  | none => none

/-- A string of several lines after its quotes; `escapes` tells the basic form from the literal. -/
def multilineFrom (quote : Char) (escapes : Bool) :
    (fuel : Nat) → (cs done : List Char) → Option (String × List Char)
  | 0, _, _ => none
  | fuel + 1, cs, done =>
    match cs with
    | [] => none
    | c :: r =>
      if c = quote then
        match closing? quote cs with
        | some (more, rest) => some (String.ofList (done.reverse ++ more), rest)
        | none => multilineFrom quote escapes fuel r (c :: done)
      else if c = '\\' && escapes then
        match continuation? r with
        | some r => multilineFrom quote escapes fuel r done
        | none =>
          match escape? r with
          | some (c, r) => multilineFrom quote escapes fuel r (c :: done)
          | none => none
      else
        match lineBreak? cs with
        | some r => multilineFrom quote escapes fuel r ('\n' :: done)
        | none =>
          if isControl c then none else multilineFrom quote escapes fuel r (c :: done)

/-- A string of several lines after its quotes; a line break right after them is dropped. -/
def multiline? (quote : Char) (escapes : Bool) (cs : List Char) : Option (String × List Char) :=
  let cs := (lineBreak? cs).getD cs
  multilineFrom quote escapes (cs.length + 1) cs []

def string? : List Char → Option (String × List Char)
  | '"' :: '"' :: '"' :: r => multiline? '"' true r
  | '\'' :: '\'' :: '\'' :: r => multiline? '\'' false r
  | '"' :: r => basicFrom (r.length + 1) r []
  | '\'' :: r => literal? r
  | _ => none

/-! ### Numbers -/

/-- Digits with single underscores between them, as the digits alone. -/
def digits? (isDigit : Char → Bool) (cs : List Char) : Option (List Char) :=
  groupedDigits? (fun c => if isDigit c then some c else none) cs

/-- Decimal digits without a zero in front, zero itself apart. -/
def whole? (cs : List Char) : Option (List Char) := do
  let ds ← digits? Char.isDigit cs
  if ds.length ≠ 1 && ds.head? = some '0' then none
  pure ds

/-- Digits in a base that their mark announces. -/
def based? : List Char → Option (Nat × List Char)
  | '0' :: 'x' :: r => (digits? (fun c => (Text.hexValue? c).isSome) r).map (16, ·)
  | '0' :: 'o' :: r => (digits? (fun c => '0' ≤ c && c ≤ '7') r).map (8, ·)
  | '0' :: 'b' :: r => (digits? (fun c => c = '0' || c = '1') r).map (2, ·)
  | _ => none

/-- An integer: in decimal with an optional sign, or in another base without one. -/
def int? (cs : List Char) : Option Int :=
  match based? cs with
  | some (base, ds) => some (ds.foldl (fun n d => base * n + (Text.hexValue? d).getD 0) 0 : Nat)
  | none => do
    let (negative, r) := spanSign cs
    let ds ← whole? r
    if digitLimit < ds.length then none
    let n : Int := digitsValue ds
    pure (if negative then -n else n)

/-- The opposite value; zero has no sign afterwards. -/
def opposite (x : Binary64) : Binary64 :=
  if x.toRat? = some 0 then .zero false else x.neg

def unsigned? (cs : List Char) : Option Binary64 :=
  if cs = ['i', 'n', 'f'] then some (.infinite false)
  else if cs = ['n', 'a', 'n'] then some .nan
  else
    let isMark := fun c => c = 'e' || c = 'E'
    let mantissa := cs.takeWhile fun c => !isMark c
    let (before, point) := (mantissa.takeWhile (· != '.'), mantissa.dropWhile (· != '.'))
    do
      let ds ← whole? before
      let fs ← match point with
        | [] => some []
        | _ :: r => digits? Char.isDigit r
      match cs.drop mantissa.length with
      | [] => if point.isEmpty then none else pure (.ofNumeral false ds fs 0)
      | _ :: r =>
        let (negative, r) := spanSign r
        let es ← digits? Char.isDigit r
        let e : Int := digitsValue es
        pure (.ofNumeral false ds fs (if negative then -e else e))

def float? (cs : List Char) : Option Binary64 :=
  let (negative, r) := spanSign cs
  (unsigned? r).map fun x => if negative then opposite x else x

/-! ### Dates and times -/

def number? (count : Nat) (cs : List Char) : Option (Nat × List Char) :=
  let ds := cs.take count
  if ds.length = count && ds.all Char.isDigit then some (digitsValue ds, cs.drop count) else none

def after? (c : Char) : List Char → Option (List Char)
  | d :: r => if d = c then some r else none
  | [] => none

def dateFrom? (cs : List Char) : Option (Date × List Char) := do
  let (year, cs) ← number? 4 cs
  let cs ← after? '-' cs
  let (month, cs) ← number? 2 cs
  let cs ← after? '-' cs
  let (day, cs) ← number? 2 cs
  if valid : _ then pure ({ year, month, day, valid }, cs) else none

def fractionFrom? (cs : List Char) : Option (List Char × List Char) :=
  match cs with
  | '.' :: r =>
    let (ds, rest) := spanDigits r
    if ds.isEmpty then none else some (ds, rest)
  | cs => some ([], cs)

/-- The microseconds of a fraction of a second: its first six digits. -/
def microseconds (ds : List Char) : Nat :=
  digitsValue ((ds ++ List.replicate 6 '0').take 6)

/-- The microseconds of a time alone: a fraction of three digits or more counts them, in its first
six digits; a shorter one counts nothing. -/
def countedMicroseconds (ds : List Char) : Nat :=
  if ds.length < 3 then 0 else digitsValue (ds.take 6)

/-- A time of day, and what follows; `count` tells the microseconds of a fraction. -/
def timeFrom? (count : List Char → Nat) (cs : List Char) : Option (Time × List Char) := do
  let (hour, cs) ← number? 2 cs
  let cs ← after? ':' cs
  let (minute, cs) ← number? 2 cs
  let cs ← after? ':' cs
  let (second, cs) ← number? 2 cs
  let (ds, cs) ← fractionFrom? cs
  let microsecond := count ds
  if valid : _ then pure ({ hour, minute, second, microsecond, valid }, cs) else none

def time? (cs : List Char) : Option Time := do
  let (t, cs) ← timeFrom? countedMicroseconds cs
  if cs.isEmpty then pure t else none

/-- Minutes from the meridian: a letter for none, or hours and minutes with a sign. -/
def offset? (cs : List Char) : Option Offset :=
  match cs with
  | ['Z'] | ['z'] => some ⟨0, by decide⟩
  | sign :: r => do
    let (hours, r) ← number? 2 r
    let r ← after? ':' r
    let (minutes, r) ← number? 2 r
    if !r.isEmpty || 60 ≤ minutes then none
    let n : Int := hours * 60 + minutes
    let minutes ← if sign = '+' then pure n else if sign = '-' then pure (-n) else none
    if valid : _ then pure { minutes, valid } else none
  | [] => none

def dateItem? (cs : List Char) : Option Item := do
  let (date, cs) ← dateFrom? cs
  match cs with
  | [] => pure (.date date)
  | c :: r =>
    if c = 'T' || c = 't' || c = ' ' then
      let (time, r) ← timeFrom? microseconds r
      if r.isEmpty then pure (.dateTime { date, time })
      else pure (.dateTime { date, time, offset := some (← offset? r) })
    else none

def isWordChar (c : Char) : Bool :=
  c.isAlphanum || c = '_' || c = '+' || c = '-' || c = '.' || c = ':'

/-- The word that begins a text. A blank before a time goes on with the date in front of it. -/
def takeWord (cs : List Char) : List Char × List Char :=
  let w := cs.takeWhile isWordChar
  let r := cs.dropWhile isWordChar
  match dateFrom? w, r with
  | some (_, []), ' ' :: d :: r' =>
    if d.isDigit then
      (w ++ ' ' :: (d :: r').takeWhile isWordChar, (d :: r').dropWhile isWordChar)
    else (w, r)
  | _, _ => (w, r)

def word? (cs : List Char) : Option Item :=
  if cs = "true".toList then some (.bool true)
  else if cs = "false".toList then some (.bool false)
  else
    match dateItem? cs with
    | some i => some i
    | none =>
    match time? cs with
    | some t => some (.time t)
    | none =>
    match int? cs with
    | some n => some (.int n)
    | none => (float? cs).map .float

end Conform.Toml
