import Conform.Pattern.Token
import Conform.Text.CharacterName

/-!
Escapes and sets of characters in regular expressions. An escape is a character, a class of
characters, a place in the text or a reference to a group; letters and digits without a meaning of
their own are refused.
-/

namespace Conform.Pattern.Reader

private def hexNumber (ds : List Char) : Nat :=
  ds.foldl (fun n d => 16 * n + (Text.hexValue? d).getD 0) 0

private def octalNumber (ds : List Char) : Nat :=
  ds.foldl (fun n d => 8 * n + (d.toNat - 0x30)) 0

private def isOctal (c : Char) : Bool := '0' ≤ c && c ≤ '7'

private def isAsciiLetter (c : Char) : Bool := c.isAlpha

def control? : Char → Option Nat
  | 'a' => some 0x7
  | 'b' => some 0x8
  | 'f' => some 0xc
  | 'n' => some 0xa
  | 'r' => some 0xd
  | 't' => some 0x9
  | 'v' => some 0xb
  | '\\' => some 0x5c
  | _ => none

def category? : Char → Option Member
  | 'd' => some (.category .digit false)
  | 'D' => some (.category .digit true)
  | 's' => some (.category .space false)
  | 'S' => some (.category .space true)
  | 'w' => some (.category .word false)
  | 'W' => some (.category .word true)
  | _ => none

def hexEscape (letter : Char) (count : Nat) : Reader Nat := do
  let ds ← takeWhile (fun c => (Text.hexValue? c).isSome) count
  let written := '\\' :: letter :: ds
  if ds.length = count then
    let n := hexNumber ds
    if n ≤ 0x10ffff then pure n
    else fail (.badEscape (String.ofList written)) written.length
  else fail (.incompleteEscape (String.ofList written)) written.length

def namedEscape : Reader Nat := do
  if ← accept '\x7b' then
    let n ← name '\x7d' "character name"
    match Text.characterNamed? n with
    | some c => pure c
    | none => fail (.unknownCharacter n) (n.length + 4)
  else fail .missingBrace 0

/-- An escape that stands for itself: every character but letters and digits. -/
def plainEscape (c : Char) : Reader Nat :=
  if isAsciiLetter c || c.isDigit then fail (.badEscape (String.ofList ['\\', c])) 2
  else pure c.toNat

def octalEscape (ds : List Char) : Reader Nat :=
  let n := octalNumber ds
  if n ≤ 0xff then pure n
  else fail (.octalTooLarge (String.ofList ('\\' :: ds))) (ds.length + 1)

/-- An escape that means the same inside and outside a set. -/
def commonEscape (c : Char) : Reader Nat :=
  match c with
  | 'x' => hexEscape 'x' 2
  | 'u' => hexEscape 'u' 4
  | 'U' => hexEscape 'U' 8
  | 'N' => namedEscape
  | c => plainEscape c

def setEscape (c : Char) : Reader Member := do
  match control? c, category? c with
  | some n, _ => pure (.char n)
  | none, some m => pure m
  | none, none =>
    if isOctal c then
      let ds ← takeWhile isOctal 2
      pure (.char (← octalEscape (c :: ds)))
    else pure (.char (← commonEscape c))

/-- A reference to a group by number, of which so many characters were taken. -/
def reference (i taken : Nat) : Reader Node := do
  let s ← get
  if i ≤ s.widths.size then
    if (closed? s i).isNone then fail .openGroup taken
    else
      checkBehind i
      pure (.backref i)
  else fail (.invalidReference i) (taken - 1)

/-- A digit from one on after a backslash: three octal digits are a character, all else refers to a
group. -/
def digitEscape (c : Char) : Reader Node := do
  match (← get).next with
  | some (.plain d) =>
    if d.isDigit then
      advance
      let next := (← get).next
      match next with
      | some (.plain e) =>
        if isOctal c && isOctal d && isOctal e then
          advance
          pure (.char (← octalEscape [c, d, e]))
        else reference ((c.toNat - 0x30) * 10 + (d.toNat - 0x30)) 3
      | _ => reference ((c.toNat - 0x30) * 10 + (d.toNat - 0x30)) 3
    else reference (c.toNat - 0x30) 2
  | _ => reference (c.toNat - 0x30) 2

def escape (c : Char) : Reader Node := do
  match c with
  | 'A' => pure (.anchor .textStart)
  | 'Z' => pure (.anchor .textEnd)
  | 'b' => pure (.anchor .boundary)
  | 'B' => pure (.anchor .noBoundary)
  | '0' => pure (.char (octalNumber (← takeWhile isOctal 2)))
  | c =>
    match category? c, control? c with
    | some m, _ => pure (.set false [m])
    | none, some n => pure (.char n)
    | none, none => if c.isDigit then digitEscape c else pure (.char (← commonEscape c))

/-! ### Sets -/

def member : Token → Reader Member
  | .plain c => pure (.char c.toNat)
  | .escaped c => setEscape c

/-- The members of a set that begins at `start`, up to its closing bracket. -/
def members (start : Nat) : Nat → List Member → Reader (List Member)
  | 0, _ => failAt .unterminatedSet start
  | n + 1, found => do
    match ← take with
    | none => failAt .unterminatedSet start
    | some this =>
      if this = .plain ']' && !found.isEmpty then pure found
      else
        let low ← member this
        if ← accept '-' then
          match ← take with
          | none => failAt .unterminatedSet start
          | some that =>
            if that = .plain ']' then pure (found ++ [low, .char 0x2d])
            else
              let high ← member that
              let bad := fail (.badRange this.text that.text) (this.length + 1 + that.length)
              match low, high with
              | .char a, .char b =>
                if b < a then bad else members start n (found ++ [.range a b])
              | _, _ => bad
        else members start n (found ++ [low])

/-- A set of characters after its opening bracket. A set of one character is that character. -/
def charSet : Reader Node := do
  let start := (← place) - 1
  let negated ← accept '^'
  match (← members start (← left) []).eraseDups with
  | [.char c] => pure (if negated then .notChar c else .char c)
  | ms => pure (.set negated ms)

end Conform.Pattern.Reader
