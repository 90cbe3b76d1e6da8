import Conform.Json.Basic
import Conform.Text.Hex
import Conform.Text.Position

/-!
Reading JSON. The text is scanned once, from the left, and the first thing that does not fit is
told with its offset, line and column. Not-a-number and the infinities are read as words.
Containers may be nested only so deep, and an integer may have only so many digits.
-/

namespace Conform.Json

/-- What does not fit. -/
inductive Cause where
  | byteOrderMark
  | value
  | name
  | colon
  | comma
  | extraData
  | controlCharacter
  | badEscape
  | badUnicodeEscape
  | unterminatedString
  deriving DecidableEq, Repr

def Cause.message : Cause → String
  | .byteOrderMark => "Unexpected UTF-8 BOM (decode using utf-8-sig)"
  | .value => "Expecting value"
  | .name => "Expecting property name enclosed in double quotes"
  | .colon => "Expecting ':' delimiter"
  | .comma => "Expecting ',' delimiter"
  | .extraData => "Extra data"
  | .controlCharacter => "Invalid control character at"
  | .badEscape => "Invalid \\escape"
  | .badUnicodeEscape => "Invalid \\uXXXX escape"
  | .unterminatedString => "Unterminated string starting at"

/-- Why a text is not read. -/
inductive Fault where
  | malformed (cause : Cause) (position : Nat)
  | tooDeep
  | tooManyDigits (count : Nat)
  deriving DecidableEq, Repr

def Cause.messageAt (cause : Cause) (text : List Char) (position : Nat) : String :=
  let (line, column) := Text.lineColumn text position
  cause.message ++ ": line " ++ toString line ++ " column " ++ toString column ++
    " (char " ++ toString position ++ ")"

/-- The most containers around a value. -/
def nestingLimit : Nat := 990

/-- What is left of the text, and its offset. -/
structure Cursor where
  rest : List Char
  pos : Nat

def Cursor.fail {α : Type} (c : Cursor) (cause : Cause) : Except Fault α :=
  .error (.malformed cause c.pos)

def isBlank (c : Char) : Bool := c = ' ' || c = '\t' || c = '\n' || c = '\r'

def Cursor.move (c : Cursor) (n : Nat) : Cursor := ⟨c.rest.drop n, c.pos + n⟩

def Cursor.skip (c : Cursor) : Cursor := c.move (c.rest.takeWhile isBlank).length

/-- Goes on after the next character and the blanks behind it. -/
def Cursor.next (c : Cursor) : Cursor := (c.move 1).skip

/-- Takes these characters, if the text goes on with them. -/
def Cursor.word? (c : Cursor) (w : String) : Option Cursor :=
  if w.toList.isPrefixOf c.rest then some (c.move w.length) else none

def hex4? (a b c d : Char) : Option Nat := do
  let a ← Text.hexValue? a
  let b ← Text.hexValue? b
  let c ← Text.hexValue? c
  let d ← Text.hexValue? d
  pure (((a * 16 + b) * 16 + c) * 16 + d)

def control? : Char → Option Char
  | '"' => some '"'
  | '\\' => some '\\'
  | '/' => some '/'
  | 'b' => some '\x08'
  | 'f' => some '\x0c'
  | 'n' => some '\n'
  | 'r' => some '\r'
  | 't' => some '\t'
  | _ => none

def isHighSurrogate (n : Nat) : Bool := 0xd800 ≤ n && n ≤ 0xdbff

def isLowSurrogate (n : Nat) : Bool := 0xdc00 ≤ n && n ≤ 0xdfff

/-- The character of a code; half of a pair alone is replaced. -/
def charOfCode (n : Nat) : Char :=
  if isHighSurrogate n || isLowSurrogate n then '\ufffd' else Char.ofNat n

/-- The rest of a string that began at `start`, with the characters so far in reverse. -/
def stringFrom (start : Nat) : List Char → (pos : Nat) → (done : List Char) →
    Except Fault (String × Cursor)
  | [], _, _ => .error (.malformed .unterminatedString start)
  | '"' :: r, pos, done => .ok (String.ofList done.reverse, ⟨r, pos + 1⟩)
  | '\\' :: 'u' :: a :: b :: c :: d :: r, pos, done =>
    match hex4? a b c d with
    | none => .error (.malformed .badUnicodeEscape (pos + 1))
    | some n =>
      if r.isEmpty then .error (.malformed .badUnicodeEscape (pos + 1))
      else
        match r with
        | '\\' :: 'u' :: e :: f :: g :: h :: x :: r' =>
          if isHighSurrogate n then
            match hex4? e f g h with
            | none => .error (.malformed .badUnicodeEscape (pos + 7))
            | some m =>
              if isLowSurrogate m then
                let code := 0x10000 + (n - 0xd800) * 0x400 + (m - 0xdc00)
                stringFrom start (x :: r') (pos + 12) (Char.ofNat code :: done)
              else
                stringFrom start ('\\' :: 'u' :: e :: f :: g :: h :: x :: r') (pos + 6)
                  (charOfCode n :: done)
          else
            stringFrom start ('\\' :: 'u' :: e :: f :: g :: h :: x :: r') (pos + 6)
              (charOfCode n :: done)
        | r => stringFrom start r (pos + 6) (charOfCode n :: done)
  | '\\' :: 'u' :: _, pos, _ => .error (.malformed .badUnicodeEscape (pos + 1))
  | ['\\'], _, _ => .error (.malformed .unterminatedString start)
  | '\\' :: c :: r, pos, done =>
    match control? c with
    | some d => stringFrom start r (pos + 2) (d :: done)
    | none => .error (.malformed .badEscape pos)
  | c :: r, pos, done =>
    if c.toNat < 0x20 then .error (.malformed .controlCharacter pos)
    else stringFrom start r (pos + 1) (c :: done)
  termination_by cs => cs.length

def readString (c : Cursor) : Except Fault (String × Cursor) :=
  stringFrom (c.pos - 1) c.rest c.pos []

/-! ### Numbers -/

def fraction? : List Char → Option (List Char × List Char)
  | '.' :: r =>
    let (ds, rest) := spanDigits r
    if ds.isEmpty then none else some (ds, rest)
  | _ => none

/-- An exponent, which is its letter, maybe a sign, and digits: its value, and how many characters
it takes. -/
def exponent? : List Char → Option (Int × Nat)
  | c :: r =>
    if c = 'e' || c = 'E' then
      let signed := r.head? == some '-' || r.head? == some '+'
      let (negative, r) := spanSign r
      let (ds, _) := spanDigits r
      if ds.isEmpty then none
      else
        let n : Int := digitsValue ds
        some (if negative then -n else n, (if signed then 2 else 1) + ds.length)
    else none
  | [] => none

/-- The digits before the point: a zero alone, or digits that begin with no zero. -/
def whole? (cs : List Char) : Option (List Char × List Char) :=
  match cs with
  | '0' :: r => some (['0'], r)
  | cs =>
    let (ds, rest) := spanDigits cs
    if ds.isEmpty then none else some (ds, rest)

def spanMinus : List Char → Bool × List Char
  | '-' :: r => (true, r)
  | cs => (false, cs)

def readNumber (c : Cursor) : Except Fault (Json × Cursor) :=
  let (negative, cs) := spanMinus c.rest
  match whole? cs with
  | none => c.fail .value
  | some (ds, rest) =>
    let taken := (if negative then 1 else 0) + ds.length
    match fraction? rest, exponent? rest with
    | some (fs, rest), _ =>
      let (e, more) := (exponent? rest).getD (0, 0)
      .ok (.number (.double (.ofNumeral negative ds fs e)), c.move (taken + 1 + fs.length + more))
    | none, some (e, more) =>
      .ok (.number (.double (.ofNumeral negative ds [] e)), c.move (taken + more))
    | none, none =>
      if digitLimit < ds.length then .error (.tooManyDigits ds.length)
      else
        let n : Int := digitsValue ds
        .ok (.number (.int (if negative then -n else n)), c.move taken)

/-- A value that is no string and no container. -/
def readScalar (c : Cursor) : Except Fault (Json × Cursor) :=
  match c.word? "null" with
  | some c => .ok (.null, c)
  | none =>
  match c.word? "true" with
  | some c => .ok (.bool true, c)
  | none =>
  match c.word? "false" with
  | some c => .ok (.bool false, c)
  | none =>
  match c.word? "NaN" with
  | some c => .ok (.number (.double .nan), c)
  | none =>
  match c.word? "Infinity" with
  | some c => .ok (.number (.double (.infinite false)), c)
  | none =>
  match c.word? "-Infinity" with
  | some c => .ok (.number (.double (.infinite true)), c)
  | none => readNumber c

/-! ### Values -/

mutual

/-- A value; `room` more containers may be opened. -/
def readValue : (fuel room : Nat) → Cursor → Except Fault (Json × Cursor)
  | 0, _, c => c.fail .value
  | fuel + 1, room, c =>
    match c.rest with
    | '"' :: _ => do
      let (s, c) ← readString (c.move 1)
      pure (.string s, c)
    | '[' :: _ =>
      match room with
      | 0 => .error .tooDeep
      | room + 1 =>
        match c.next.rest with
        | ']' :: _ => .ok (.array [], c.next.move 1)
        | _ => do
          let (js, c) ← readItems fuel room c.next []
          pure (.array js, c)
    | '\x7b' :: _ =>
      match room with
      | 0 => .error .tooDeep
      | room + 1 =>
        match c.next.rest with
        | '\x7d' :: _ => .ok (.object [], c.next.move 1)
        | _ => do
          let (ps, c) ← readPairs fuel room c.next []
          pure (.object (Members.ofPairs ps), c)
    | _ => readScalar c

/-- Items up to the closing bracket, with those so far in reverse. -/
def readItems : (fuel room : Nat) → Cursor → (done : List Json) → Except Fault (List Json × Cursor)
  | 0, _, c, _ => c.fail .value
  | fuel + 1, room, c, done => do
    let (j, c) ← readValue fuel room c
    match c.skip.rest with
    | ']' :: _ => pure ((j :: done).reverse, c.skip.move 1)
    | ',' :: _ => readItems fuel room c.skip.next (j :: done)
    | _ => c.skip.fail .comma

/-- Keys with values up to the closing brace, with those so far in reverse. -/
def readPairs : (fuel room : Nat) → Cursor → (done : List (String × Json)) →
    Except Fault (List (String × Json) × Cursor)
  | 0, _, c, _ => c.fail .value
  | fuel + 1, room, c, done =>
    match c.rest with
    | '"' :: _ => do
      let (key, c) ← readString (c.move 1)
      match c.skip.rest with
      | ':' :: _ =>
        let (j, c) ← readValue fuel room c.skip.next
        match c.skip.rest with
        | '\x7d' :: _ => pure (((key, j) :: done).reverse, c.skip.move 1)
        | ',' :: _ => readPairs fuel room c.skip.next ((key, j) :: done)
        | _ => c.skip.fail .comma
      | _ => c.skip.fail .colon
    | _ => c.fail .name

end

def parse (text : List Char) : Except Fault Json := do
  if text.head? = some '\ufeff' then throw (.malformed .byteOrderMark 0)
  let (j, c) ← readValue (2 * text.length + 2) nestingLimit (Cursor.skip ⟨text, 0⟩)
  if c.skip.rest.isEmpty then pure j else c.skip.fail .extraData

end Conform.Json
