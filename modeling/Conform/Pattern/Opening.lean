import Conform.Number.Numeral
import Conform.Pattern.Token
import Conform.Text.Blank
import Conform.Text.Digit

/-!
What follows an opening bracket in a regular expression: the kind of a group, its name, its flags,
or the group that a condition asks for.
-/

namespace Conform.Pattern.Reader

/-- A flag in a group: the letters of `ofLetter?` and the one for the locale, which only bytes can
have. -/
def isFlag : Token → Bool
  | .plain c => c = 'L' || (Flags.ofLetter? c).isSome
  | .escaped _ => false

/-- The flags before a minus, a colon or the end of the group; also which of these it was. -/
def flagsOn : Nat → Token → Flags → Reader (Flags × Token)
  | 0, _, _ => fail .missingFlagEnd 0
  | n + 1, t, on => do
    match t with
    | .plain c =>
      match Flags.ofLetter? c with
      | none => fail .localeFlag 0
      | some f =>
        let on := on.union f
        if f.namesCharset && on.ascii && on.unicode then fail .incompatibleFlags 0
        else
          match ← take with
          | none => fail .missingFlagEnd 0
          | some t =>
            if t = .plain ')' || t = .plain '-' || t = .plain ':' then pure (on, t)
            else if isFlag t then flagsOn n t on
            else fail (if t.isLetter then .unknownFlag else .missingFlagEnd) t.length
    | .escaped _ => fail .missingFlagEnd 0

def flagsOff : Nat → Token → Flags → Reader Flags
  | 0, _, _ => fail .missingColon 0
  | n + 1, t, off => do
    match t with
    | .plain c =>
      match Flags.ofLetter? c with
      | none => fail .typeFlagOff 0
      | some f =>
        if f.namesCharset then fail .typeFlagOff 0
        else
          let off := off.union f
          match ← take with
          | none => fail .missingColon 0
          | some t =>
            if t = .plain ':' then pure off
            else if isFlag t then flagsOff n t off
            else fail (if t.isLetter then .unknownFlag else .missingColon) t.length
    | .escaped _ => fail .missingColon 0

/-- The flags of a group that begins with this token; none if they were for the whole expression. -/
def groupFlags (t : Token) : Reader (Option (Flags × Flags)) := do
  let (on, t) ← if t = .plain '-' then pure (Flags.none, t) else flagsOn (← left) t .none
  if t = .plain ')' then
    modify fun s => { s with flags := s.flags.union on }
    return none
  if on.template then fail .globalFlagOn 1
  let off ←
    if t = .plain '-' then
      match ← take with
      | none => fail .missingFlag 0
      | some t =>
        if isFlag t then flagsOff (← left) t .none
        else fail (if t.isLetter then .unknownFlag else .missingFlag) t.length
    else pure .none
  if off.template then fail .globalFlagOff 1
  if on.inter off ≠ .none then fail .flagOnAndOff 1
  return some (on, off)

/-! ### Conditions -/

/-- Decimal digits of any script with single underscores between them. -/
def digitsOf? (cs : List Char) : Option (List Nat) :=
  groupedDigits? (fun c => Text.digitValue? c.toNat) cs

/-- A group number: digits between blanks, maybe after a plus sign; a minus sign only before zero.
-/
def groupNumber? (s : String) : Option Nat := do
  let (minus, cs) := spanSign (Text.trim s.toList)
  let ds ← digitsOf? cs
  if digitLimit < ds.length then none
  let n := ds.foldl (fun n d => 10 * n + d) 0
  if minus && n != 0 then none
  pure n

/-- No group number reaches this. -/
def groupLimit : Nat := 1073741823

def condition : Reader Nat := do
  let n ← name ')' "group name"
  let back := n.length + 1
  if Text.isIdentifier n then
    match (← get).names.lookup n with
    | some i => pure i
    | none => fail (.unknownGroup n) back
  else
    match groupNumber? n with
    | none => fail (.badGroupName n) back
    | some 0 => fail .badGroupNumber back
    | some i =>
      if groupLimit ≤ i then fail (.invalidReference i) back
      else
        let p ← place
        modify fun s =>
          if (s.asked.lookup i).isSome then s else { s with asked := (i, p - back) :: s.asked }
        pure i

/-! ### Kinds of groups -/

/-- What an opening bracket led to. -/
inductive Opened where
  | node (n : Node)
  | comment
  | flags

inductive GroupKind where
  | capture (name : Option String)
  | plain (on off : Flags)
  | atomic
  | ahead (negated : Bool)
  | behind (negated : Bool)

inductive Announced where
  | group (k : GroupKind)
  | condition
  | opened (o : Opened)

/-- A group that begins with a question mark and `P`. -/
def namedGroup : Reader Announced := do
  if ← accept '<' then
    pure (.group (.capture (some (← groupName '>'))))
  else if ← accept '=' then
    let n ← groupName ')'
    let back := n.length + 1
    match (← get).names.lookup n with
    | none => fail (.unknownGroup n) back
    | some i =>
      if (closed? (← get) i).isNone then fail .openGroup back
      else
        checkBehind i
        pure (.opened (.node (.backref i)))
  else
    match ← take with
    | none => fail .unexpectedEnd 0
    | some t => fail (.unknownExtension ("P" ++ t.text)) (t.length + 2)

/-- A group that begins with a question mark and `<`. -/
def lookingBack : Reader Announced := do
  match ← take with
  | none => fail .unexpectedEnd 0
  | some (.plain '=') => pure (.group (.behind false))
  | some (.plain '!') => pure (.group (.behind true))
  | some t => fail (.unknownExtension ("<" ++ t.text)) (t.length + 2)

/-- The text after an opening bracket at offset `start`. Flags for the whole expression may only
stand at its beginning. -/
def announced (start : Nat) (atStart : Bool) : Reader Announced := do
  if !(← accept '?') then return .group (.capture none)
  match ← take with
  | none => fail .unexpectedEnd 0
  | some t =>
    match t with
    | .plain 'P' => namedGroup
    | .plain ':' => pure (.group (.plain .none .none))
    | .plain '#' =>
      if ← skipPast ')' (← left) then pure (.opened .comment)
      else failAt .unterminatedComment start
    | .plain '=' => pure (.group (.ahead false))
    | .plain '!' => pure (.group (.ahead true))
    | .plain '<' => lookingBack
    | .plain '(' => pure .condition
    | .plain '>' => pure (.group .atomic)
    | t =>
      if isFlag t || t = .plain '-' then
        match ← groupFlags t with
        | some (on, off) => pure (.group (.plain on off))
        | none =>
          if atStart then pure (.opened .flags) else failAt .flagsNotFirst start
      else fail (.unknownExtension t.text) (t.length + 1)

def close (start : Nat) : Reader Unit := do
  if !(← accept ')') then failAt .unterminatedGroup start

end Conform.Pattern.Reader
