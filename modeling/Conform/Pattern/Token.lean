import Conform.Pattern.Fault
import Conform.Pattern.Syntax
import Conform.Text.Hex
import Conform.Text.Identifier
import Conform.Text.Letter

/-!
The text of a regular expression as it is taken: in tokens, a token being one character or a
backslash with the character after it, and always one token ahead. A backslash at the very end is
refused as soon as it comes next. Faults name the offset where they show.
-/

namespace Conform.Pattern

/-- A unit of an expression's text. -/
inductive Token where
  | plain (c : Char)
  | escaped (c : Char)
  deriving DecidableEq, Repr

namespace Token

def chars : Token → List Char
  | .plain c => [c]
  | .escaped c => ['\\', c]

def text (t : Token) : String := String.ofList t.chars

def length (t : Token) : Nat := t.chars.length

def isLetter : Token → Bool
  | .plain c => Text.isLetter c.toNat
  | .escaped _ => false

end Token

/-- The most groups around a part of an expression that is compiled on an empty stack. What is on the
stack below a deep node is not counted. -/
def nestingLimit : Nat := 480

structure State where
  /-- The token ahead. -/
  next : Option Token
  /-- The text after it. -/
  rest : List Char
  /-- The offset of that text. -/
  offset : Nat
  flags : Flags := {}
  /-- Named groups with their numbers. -/
  names : List (String × Nat) := []
  /-- The widths of the groups from number one on; an open group has none yet. -/
  widths : Array (Option (Nat × Nat)) := #[]
  /-- Inside a look-behind, the first group number that it may not refer to. -/
  behindLimit : Option Nat := none
  /-- Groups that conditions ask for by number, with the offsets, the latest first. -/
  asked : List (Nat × Nat) := []
  /-- How many more groups may be opened inside the one at hand. -/
  room : Nat := nestingLimit

abbrev Reader := StateT State (Except Refusal)

namespace Reader

def place : Reader Nat := do
  let s ← get
  pure (s.offset - match s.next with | some t => t.length | none => 0)

def failAt {α : Type} (cause : Cause) (position : Nat) : Reader α :=
  throw (.fault ⟨cause, some position⟩)

/-- Fails `back` characters before the token ahead. -/
def fail {α : Type} (cause : Cause) (back : Nat) : Reader α := do
  failAt cause ((← place) - back)

/-- Splits the first token off a text at an offset. -/
def token? (cs : List Char) (offset : Nat) : Except Refusal (Option Token × List Char × Nat) :=
  match cs with
  | [] => .ok (none, [], offset)
  | ['\\'] => .error (.fault ⟨.escapeAtEnd, some offset⟩)
  | '\\' :: c :: r => .ok (some (.escaped c), r, offset + 2)
  | c :: r => .ok (some (.plain c), r, offset + 1)

def advance : Reader Unit := do
  let s ← get
  match token? s.rest s.offset with
  | .error e => throw e
  | .ok (next, rest, offset) => set { s with next, rest, offset }

def take : Reader (Option Token) := do
  let t := (← get).next
  advance
  pure t

def accept (c : Char) : Reader Bool := do
  if (← get).next = some (.plain c) then
    advance
    pure true
  else pure false

def takeWhile (test : Char → Bool) : Nat → Reader (List Char)
  | 0 => pure []
  | n + 1 => do
    match (← get).next with
    | some (.plain c) =>
      if test c then
        advance
        pure (c :: (← takeWhile test n))
      else pure []
    | _ => pure []

/-- A bound on the tokens that are left. -/
def left : Reader Nat := do pure ((← get).rest.length + 2)

def takeDigits : Reader (List Char) := do takeWhile Char.isDigit (← left)

def takeUntil (terminator : Char) (what : String) : Nat → List Char → Reader String
  | 0, _ => fail (.missingName what) 0
  | n + 1, taken => do
    match ← take with
    | none =>
      if taken.isEmpty then fail (.missingName what) 0
      else fail (.unterminatedName terminator) taken.length
    | some t =>
      if t = .plain terminator then
        if taken.isEmpty then fail (.missingName what) 1
        else pure (String.ofList taken)
      else takeUntil terminator what n (taken ++ t.chars)

/-- A name up to its terminator, which is taken too. -/
def name (terminator : Char) (what : String) : Reader String := do
  takeUntil terminator what (← left) []

def groupName (terminator : Char) : Reader String := do
  let n ← name terminator "group name"
  if Text.isIdentifier n then pure n else fail (.badGroupName n) (n.length + 1)

/-- Skips the tokens up to and with this character. -/
def skipPast (c : Char) : Nat → Reader Bool
  | 0 => pure false
  | n + 1 => do
    match ← take with
    | none => pure false
    | some t => if t = .plain c then pure true else skipPast c n

def skipLine : Reader Unit := do
  let _ ← skipPast '\n' (← left)

/-- One more than the number of groups so far. -/
def groups : Reader Nat := do pure ((← get).widths.size + 1)

def closed? (s : State) (i : Nat) : Option (Nat × Nat) :=
  if i = 0 then none else (s.widths[i - 1]?).join

/-- Inside a look-behind only groups closed before it can be referred to. -/
def checkBehind (i : Nat) : Reader Unit := do
  let s ← get
  match s.behindLimit with
  | none => pure ()
  | some limit =>
    if (closed? s i).isNone then fail .openGroup 0
    else if limit ≤ i then fail .sameLookbehind 0
    else pure ()

def openGroup (named : Option String) : Reader Nat := do
  let s ← get
  let i := s.widths.size + 1
  match named with
  | none => set { s with widths := s.widths.push none }
  | some n =>
    match s.names.lookup n with
    | some earlier => fail (.redefinedGroup n i earlier) (n.length + 1)
    | none => set { s with widths := s.widths.push none, names := (n, i) :: s.names }
  pure i

def widthOf (n : Node) : Reader (Nat × Nat) := do
  let s ← get
  pure (n.width fun i => (closed? s i).getD (0, 0))

def inside {α : Type} (contents : Reader α) : Reader α := do
  match (← get).room with
  | 0 => throw (.interrupted .patternTooDeep)
  | room + 1 =>
    modify fun s => { s with room }
    let x ← contents
    modify fun s => { s with room := room + 1 }
    pure x

def closeGroup (i : Nat) (body : Node) : Reader Unit := do
  let w ← widthOf body
  modify fun s => { s with widths := s.widths.setIfInBounds (i - 1) (some w) }

end Reader

end Conform.Pattern
