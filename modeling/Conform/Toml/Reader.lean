import Conform.Toml.Scalar
import Conform.Toml.Table

/-!
The decoder of the program. It reads TOML documents line by line; the items of an array share one
shape, and containers may be nested only so deep. Nothing is proved of it: what is read is told for
every decoder.
-/

namespace Conform.Toml

/-- The most containers around a value. -/
def nestingLimit : Nat := 480

/-- Lifts a reader that knows one fault only. -/
def expect {α : Type} : Option α → Except Fault α
  | some x => .ok x
  | none => .error (.decodeError none)

def comment? (cs : List Char) : Option (List Char) :=
  match cs with
  | '#' :: r =>
    let rest := r.dropWhile fun c => c = '\r' || !isControl c
    match rest with
    | [] | '\n' :: _ => some rest
    | _ => none
  | cs => some cs

/-- What follows the end of a line: blanks, maybe a comment, and a line break or the end. -/
def endOfLine? (cs : List Char) : Option (List Char) := do
  match ← comment? (skipBlanks cs) with
  | [] => pure []
  | cs => lineBreak? cs

/-- Skips blanks, comments and line breaks; `inComment` tells that a comment has begun. -/
def skipLines? (inComment : Bool) : List Char → Option (List Char)
  | [] => some []
  | '\n' :: r => skipLines? false r
  | '\r' :: '\n' :: r => skipLines? false r
  | c :: r =>
    if inComment then
      if c = '\r' || !isControl c then skipLines? true r else none
    else if isBlank c then skipLines? false r
    else if c = '#' then skipLines? true r
    else some (c :: r)

def skipLines (cs : List Char) : Except Fault (List Char) := expect (skipLines? false cs)

/-! ### Keys -/

def isBare (c : Char) : Bool := c.isAlphanum || c = '_' || c = '-'

def simpleKey? : List Char → Option (String × List Char)
  | '"' :: r => basicFrom (r.length + 1) r []
  | '\'' :: r => literal? r
  | cs =>
    let k := cs.takeWhile isBare
    if k.isEmpty then none else some (String.ofList k, cs.dropWhile isBare)

/-- Keys with points between them, and what follows the blanks after them. -/
def key? : (fuel : Nat) → List Char → Option (List String × List Char)
  | 0, _ => none
  | fuel + 1, cs => do
    let (k, cs) ← simpleKey? (skipBlanks cs)
    match skipBlanks cs with
    | '.' :: r =>
      let (ks, cs) ← key? fuel r
      pure (k :: ks, cs)
    | cs => pure ([k], cs)

def key (cs : List Char) : Except Fault (List String × List Char) :=
  expect (key? (cs.length + 1) cs)

/-! ### Values -/

mutual

/-- A value; `room` more containers may be opened. -/
def value : (fuel room : Nat) → List Char → Except Fault (Item × List Char)
  | 0, _, _ => .error (.decodeError none)
  | fuel + 1, room, cs =>
    match cs with
    | '[' :: r =>
      match room with
      | 0 => .error .recursionError
      | room + 1 => do
        let (is, cs) ← items fuel room r []
        if Item.sameShape is then pure (.array is, cs) else .error (.decodeError none)
    | '\x7b' :: r =>
      match room with
      | 0 => .error .recursionError
      | room + 1 =>
        match skipBlanks r with
        | '\x7d' :: r => .ok (.table [], r)
        | cs => do
          let (ms, cs) ← pairs fuel room cs []
          pure (.table (Node.toItems ms), cs)
    | '"' :: _ | '\'' :: _ => do
      let (s, cs) ← expect (string? cs)
      pure (.string s, cs)
    | cs => do
      let (w, cs) := takeWord cs
      pure (← expect (word? w), cs)

/-- The items of an array up to its bracket, with those so far in reverse. -/
def items : (fuel room : Nat) → List Char → (done : List Item) →
    Except Fault (List Item × List Char)
  | 0, _, _, _ => .error (.decodeError none)
  | fuel + 1, room, cs, done => do
    match ← skipLines cs with
    | ']' :: r => pure (done.reverse, r)
    | cs =>
      let (i, cs) ← value fuel room cs
      match ← skipLines cs with
      | ',' :: r => items fuel room r (i :: done)
      | ']' :: r => pure ((i :: done).reverse, r)
      | _ => .error (.decodeError none)

/-- The pairs of a table on one line, up to its brace. -/
def pairs : (fuel room : Nat) → List Char → (done : Tables.Growing) →
    Except Fault (Tables.Growing × List Char)
  | 0, _, _, _ => .error (.decodeError none)
  | fuel + 1, room, cs, done => do
    let (ks, cs) ← key cs
    match cs with
    | '=' :: r =>
      let (i, cs) ← value fuel room (skipBlanks r)
      let done ← Tables.assign i ks done
      match skipBlanks cs with
      | ',' :: r => pairs fuel room r done
      | '\x7d' :: r => pure (done, r)
      | _ => .error (.decodeError none)
    | _ => .error (.decodeError none)

end

/-! ### Documents -/

/-- A document in the making: its tables, and the path of the one that keys go to. -/
structure Draft where
  root : Tables.Growing := []
  path : List String := []

/-- One header or pair, and what follows its line. -/
def statement (d : Draft) (cs : List Char) : Except Fault (Draft × List Char) :=
  match cs with
  | '[' :: '[' :: r => do
    let (path, cs) ← key r
    match cs with
    | ']' :: ']' :: r =>
      let r ← expect (endOfLine? r)
      pure ({ root := ← Tables.passing Tables.beginNext path d.root, path }, r)
    | _ => .error (.decodeError none)
  | '[' :: r => do
    let (path, cs) ← key r
    match cs with
    | ']' :: r =>
      let r ← expect (endOfLine? r)
      pure ({ root := ← Tables.passing Tables.begin path d.root, path }, r)
    | _ => .error (.decodeError none)
  | cs => do
    let (ks, cs) ← key cs
    match cs with
    | '=' :: r =>
      let (i, cs) ← value (2 * r.length + 2) nestingLimit (skipBlanks r)
      let cs ← expect (endOfLine? cs)
      pure ({ d with root := ← Tables.change (Tables.assign i ks) d.path d.root }, cs)
    | _ => .error (.decodeError none)

def statements : (fuel : Nat) → Draft → List Char → Except Fault Draft
  | 0, _, _ => .error (.decodeError none)
  | fuel + 1, d, cs => do
    match ← skipLines cs with
    | [] => pure d
    | cs =>
      let (d, cs) ← statement d cs
      statements fuel d cs

def parse (text : List Char) : Except Fault Item := do
  let d ← statements (text.length + 1) {} text
  pure (.table (Node.toItems d.root))

/-- The decoder that the program is built with. -/
instance : Decoder := ⟨parse⟩

end Conform.Toml
