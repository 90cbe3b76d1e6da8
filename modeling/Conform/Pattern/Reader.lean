import Conform.Pattern.Escape
import Conform.Pattern.Opening

/-!
Reading regular expressions: repetitions, sequences, groups and choices, and then the checks on the
whole expression.
-/

namespace Conform.Pattern

namespace Reader

/-- The least count that is refused. -/
def countLimit : Nat := 4294967295

def count (ds : List Char) : Reader Nat := do
  if digitLimit < ds.length then throw (.interrupted (.tooManyDigits ds.length))
  let n := ds.foldl (fun n d => 10 * n + (d.toNat - 0x30)) 0
  if countLimit ≤ n then throw (.interrupted .repetitionTooLarge)
  pure n

/-- The bounds in braces; none if the brace is just a character, and then nothing is taken. -/
def bounds? : Reader (Option (Nat × Option Nat)) := do
  let saved ← get
  if saved.next = some (.plain '\x7d') then return none
  let start ← place
  let low ← takeDigits
  let high ← if ← accept ',' then takeDigits else pure low
  if !(← accept '\x7d') then
    set saved
    return none
  let least ← if low.isEmpty then pure 0 else count low
  if high.isEmpty then return some (least, none)
  let most ← count high
  if most < least then failAt .boundsReversed start
  return some (least, some most)

/-- Whether the latest node can be repeated, with the offset of the repetition sign. -/
def repeatable (done : List Node) (sign : Nat) : Reader (Node × List Node) :=
  match done with
  | [] => failAt .nothingToRepeat sign
  | .anchor _ :: _ => failAt .nothingToRepeat sign
  | .again _ _ _ _ :: _ => failAt .multipleRepeat sign
  | n :: r => pure (n, r)

/-- Repeats the latest node; `sign` is the offset of the repetition sign. -/
def again (done : List Node) (sign : Nat) (least : Nat) (most : Option Nat) :
    Reader (List Node) := do
  let (n, r) ← repeatable done sign
  if ← accept '?' then pure (.again .lazy least most n :: r)
  else if ← accept '+' then pure (.again .possessive least most n :: r)
  else pure (.again .greedy least most n :: r)

/-! ### Sequences and groups -/

mutual

/-- Sequences with bars between them. At the top, flags for the whole expression take effect from
one sequence to the next. -/
def choice : (fuel : Nat) → (top verbose : Bool) → Reader Node
  | 0, _, _ => fail .unexpectedEnd 0
  | fuel + 1, top, verbose => do
    let first ← sequence fuel top verbose []
    pure (Node.ofAlternatives (first :: (← alternatives fuel top verbose)))

def alternatives : (fuel : Nat) → (top verbose : Bool) → Reader (List Node)
  | 0, _, _ => fail .unexpectedEnd 0
  | fuel + 1, top, verbose => do
    if ← accept '|' then
      let s ← get
      let verbose := if top then s.flags.verbose else verbose
      let n ← sequence fuel false verbose []
      pure (n :: (← alternatives fuel top verbose))
    else pure []

/-- Nodes one after the other; `done` holds those so far, the latest first. -/
def sequence : (fuel : Nat) → (atStart verbose : Bool) → (done : List Node) → Reader Node
  | 0, _, _, _ => fail .unexpectedEnd 0
  | fuel + 1, atStart, verbose, done => do
    match (← get).next with
    | none | some (.plain '|') | some (.plain ')') => pure (Node.ofList done.reverse)
    | some t =>
      let sign ← place
      advance
      match t with
      | .escaped c => sequence fuel atStart verbose ((← escape c) :: done)
      | .plain c =>
        if verbose && Text.isAsciiBlank c.toNat then sequence fuel atStart verbose done
        else if verbose && c = '#' then
          skipLine
          sequence fuel atStart verbose done
        else
          match c with
          | '[' => sequence fuel atStart verbose ((← charSet) :: done)
          | '.' => sequence fuel atStart verbose (.any :: done)
          | '^' => sequence fuel atStart verbose (.anchor .lineStart :: done)
          | '$' => sequence fuel atStart verbose (.anchor .lineEnd :: done)
          | '?' => sequence fuel atStart verbose (← again done sign 0 (some 1))
          | '*' => sequence fuel atStart verbose (← again done sign 0 none)
          | '+' => sequence fuel atStart verbose (← again done sign 1 none)
          | '\x7b' =>
            match ← bounds? with
            | none => sequence fuel atStart verbose (.char c.toNat :: done)
            | some (least, most) => sequence fuel atStart verbose (← again done sign least most)
          | '(' =>
            match ← opened fuel sign (atStart && done.isEmpty) verbose with
            | .node n => sequence fuel atStart verbose (n :: done)
            | .comment => sequence fuel atStart verbose done
            | .flags => sequence fuel atStart (← get).flags.verbose done
          | c => sequence fuel atStart verbose (.char c.toNat :: done)

/-- What follows an opening bracket at offset `start`, with its closing bracket. -/
def opened : (fuel : Nat) → (start : Nat) → (atStart verbose : Bool) → Reader Opened
  | 0, _, _, _ => fail .unexpectedEnd 0
  | fuel + 1, start, atStart, verbose => do
    match ← announced start atStart with
    | .opened o => pure o
    | .condition =>
      let i ← condition
      checkBehind i
      let yes ← inside (sequence fuel false verbose [])
      let no ←
        if ← accept '|' then
          let no ← inside (sequence fuel false verbose [])
          if (← get).next = some (.plain '|') then fail .tooManyBranches 0
          pure no
        else pure .empty
      close start
      pure (.node (.conditional i yes no))
    | .group (.capture named) =>
      let i ← openGroup named
      let body ← inside (choice fuel false verbose)
      close start
      closeGroup i body
      pure (.node (.group (some i) .none .none body))
    | .group (.plain on off) =>
      let body ← inside (choice fuel false ((verbose || on.verbose) && !off.verbose))
      close start
      pure (.node (.group none on off body))
    | .group .atomic =>
      let body ← inside (choice fuel false verbose)
      close start
      pure (.node (.atomic body))
    | .group (.ahead negated) =>
      let body ← inside (choice fuel false verbose)
      close start
      pure (.node (.ahead negated body))
    | .group (.behind negated) =>
      let outer := (← get).behindLimit
      if outer.isNone then
        let limit ← groups
        modify fun s => { s with behindLimit := some limit }
      let body ← inside (choice fuel false verbose)
      if outer.isNone then modify fun s => { s with behindLimit := none }
      close start
      let (least, most) ← widthOf body
      pure (.node (.behind negated least most body))

end

def expression (fuel : Nat) : Reader (Node × Flags × Nat) := do
  let n ← choice fuel true false
  let s ← get
  if s.flags.ascii && s.flags.unicode then throw (.interrupted .flagsClash)
  if s.next.isSome then fail .unbalanced 0
  match s.asked.reverse.find? fun a => s.widths.size < a.1 with
  | some (i, position) => failAt (.invalidReference i) position
  | none => pure (n, s.flags, s.widths.size)

end Reader

/-! ### Checks on the whole expression -/

/-- The greatest distance that can be looked back. -/
def farthest : Nat := 0xffffffff

/-- Look-behinds have one width; an expression that is a template has no repetitions. -/
def Node.check (template : Bool) : Node → Except Cause Unit
  | .cat a b | .alt a b => do
    a.check template
    b.check template
  | .again appetite _ _ body => do
    if template then
      throw (.templateRepeat (match appetite with
        | .greedy => "MAX_REPEAT"
        | .lazy => "MIN_REPEAT"
        | .possessive => "POSSESSIVE_REPEAT"))
    body.check template
  | .group _ _ _ body | .atomic body | .ahead _ body => body.check template
  | .behind _ least most body => do
    if farthest < least then throw .lookbehindTooFar
    if least ≠ most then throw .lookbehindWidth
    body.check template
  | .conditional _ yes no => do
    yes.check template
    no.check template
  | .empty | .char _ | .notChar _ | .any | .set _ _ | .anchor _ | .backref _ => .ok ()

end Conform.Pattern
