import Conform.Pattern.Syntax
import Conform.Text.Blank
import Conform.Text.Case
import Conform.Text.Digit
import Conform.Text.Letter

/-!
Matching by backtracking. A node is run at a place with a continuation for the rest of the
expression; it tries its ways in order of preference and answers with the first that the
continuation accepts. The recursion is on the expression; a repetition is bounded by its least
count and the length of the text, since beyond the least count a round that takes nothing ends it.
-/

namespace Conform.Pattern

namespace Flags

/-- The form in which characters are compared. -/
def fold (f : Flags) (c : Nat) : Nat :=
  if f.ignoreCase then if f.ascii then Text.asciiLower c else Text.lower c else c

/-- The other forms that count as the same letter. -/
def alike (f : Flags) (c : Nat) : List Nat :=
  if f.ignoreCase && !f.ascii then Text.sameCapital c else []

/-- The characters whose form for comparison is `c`. -/
def unfold (f : Flags) (c : Nat) : List Nat :=
  if f.ignoreCase then
    if f.ascii then
      if 0x61 ≤ c && c ≤ 0x7a then [c, c - 0x20] else if 0x41 ≤ c && c ≤ 0x5a then [] else [c]
    else Text.withLower c
  else [c]

def same (f : Flags) (c d : Nat) : Bool :=
  f.fold c == f.fold d || (f.alike (f.fold d)).contains (f.fold c)

def isWord (f : Flags) (c : Nat) : Bool := if f.ascii then Text.isAsciiWord c else Text.isWord c

end Flags

def Category.holds (f : Flags) (c : Nat) : Category → Bool
  | .digit => if f.ascii then Text.isAsciiDigit c else Text.isDigit c
  | .space => if f.ascii then Text.isAsciiBlank c else Text.isBlank c
  | .word => f.isWord c

/-- Whether a folded character is covered by a member of a set. A member from the supplementary
planes is compared as it is written. -/
def Member.holds (f : Flags) (c : Nat) : Member → Bool
  | .char m => if 0x10000 ≤ m then c == m else f.same m c
  | .range low high =>
    (c :: f.alike c).any fun k => (f.unfold k).any fun i => low ≤ i && i ≤ high
  | .category k negated => k.holds f c != negated

/-- A place in the text, and the starts and ends of the groups seen on the way, two for each
group. -/
structure Place where
  pos : Nat
  marks : Array (Option Nat)
  deriving Repr

namespace Place

def move (p : Place) (n : Nat) : Place := { p with pos := p.pos + n }

def mark (p : Place) (i : Nat) : Place := { p with marks := p.marks.setIfInBounds i (some p.pos) }

/-- The start and end of a group that was seen whole. -/
def span? (p : Place) (i : Nat) : Option (Nat × Nat) :=
  match (p.marks[2 * (i - 1)]?).join, (p.marks[2 * (i - 1) + 1]?).join with
  | some s, some e => if s ≤ e then some (s, e) else none
  | _, _ => none

end Place

/-- What is left to match. -/
abbrev Rest := Place → Option Place

/-- A way of matching from a place. -/
abbrev Step := Place → Rest → Option Place

/-- Whether a boundary between a word and something else lies here. In an empty text there is
neither a boundary nor a place without one. -/
def atBoundary? (text : Array Nat) (f : Flags) (pos : Nat) : Option Bool :=
  if text.size = 0 then none else
    let before := if pos = 0 then false else (text[pos - 1]?.map f.isWord).getD false
    let after := (text[pos]?.map f.isWord).getD false
    some (before != after)

def Anchor.holds (text : Array Nat) (f : Flags) (pos : Nat) : Anchor → Bool
  | .textStart => pos == 0
  | .textEnd => pos == text.size
  | .lineStart => pos == 0 || (f.multiline && text[pos - 1]? == some 0xa)
  | .lineEnd =>
    pos == text.size || (text[pos]? == some 0xa && (f.multiline || pos + 1 == text.size))
  | .boundary => atBoundary? text f pos == some true
  | .noBoundary => atBoundary? text f pos == some false

def one (text : Array Nat) (test : Nat → Bool) (p : Place) (k : Rest) : Option Place :=
  match text[p.pos]? with
  | some c => if test c then k (p.move 1) else none
  | none => none

/-- Whether the `n` characters at two places are the same letters. -/
def sameSpan (text : Array Nat) (f : Flags) (i j : Nat) : Nat → Bool
  | 0 => true
  | n + 1 =>
    match text[i]?, text[j]? with
    | some c, some d => f.fold c == f.fold d && sameSpan text f (i + 1) (j + 1) n
    | _, _ => false

/-! ### Repetitions -/

/-- Whether one more round is allowed after `count` rounds, the last of which began at `last`. -/
def mayRepeat (most : Option Nat) (count : Nat) (last : Option Nat) (p : Place) : Bool :=
  (match most with
    | some n => count < n
    | none => true) && last != some p.pos

/-- Rounds of `step`, as many as can be. -/
def greedily (step : Step) (least : Nat) (most : Option Nat) (k : Rest) :
    (fuel count : Nat) → (last : Option Nat) → Rest
  | 0, _, _, _ => none
  | fuel + 1, count, last, p =>
    if count < least then step p (greedily step least most k fuel (count + 1) last)
    else if mayRepeat most count last p then
      match step p (greedily step least most k fuel (count + 1) (some p.pos)) with
      | some r => some r
      | none => k p
    else k p

/-- Rounds of `step`, as few as can be. -/
def lazily (step : Step) (least : Nat) (most : Option Nat) (k : Rest) :
    (fuel count : Nat) → (last : Option Nat) → Rest
  | 0, _, _, _ => none
  | fuel + 1, count, last, p =>
    if count < least then step p (lazily step least most k fuel (count + 1) last)
    else
      match k p with
      | some r => some r
      | none =>
        if mayRepeat most count last p then
          step p (lazily step least most k fuel (count + 1) (some p.pos))
        else none

/-- Rounds of `step`, each taken as it comes. -/
def possessively (step : Step) (least : Nat) (most : Option Nat) :
    (fuel count : Nat) → (last : Option Nat) → Rest
  | 0, _, _, _ => none
  | fuel + 1, count, last, p =>
    if count < least then
      match step p some with
      | some q => possessively step least most fuel (count + 1) last q
      | none => none
    else if mayRepeat most count last p then
      match step p some with
      | some q => possessively step least most fuel (count + 1) (some p.pos) q
      | none => some p
    else some p

/-- Runs a node at a place; the answer is where the continuation ended. -/
def Node.run (text : Array Nat) : Node → Flags → Step
  | .empty, _, p, k => k p
  | .cat a b, f, p, k => a.run text f p fun q => b.run text f q k
  | .alt a b, f, p, k =>
    match a.run text f p k with
    | some r => some r
    | none => b.run text f p k
  | .char c, f, p, k => one text (fun d => f.same c d) p k
  | .notChar c, f, p, k => one text (fun d => !f.same c d) p k
  | .any, f, p, k => one text (fun d => f.dotAll || d != 0xa) p k
  | .set negated ms, f, p, k =>
    one text (fun d => (ms.any fun m => m.holds f (f.fold d)) != negated) p k
  | .anchor a, f, p, k => if a.holds text f p.pos then k p else none
  | .again appetite least most body, f, p, k =>
    let step : Step := fun q k => body.run text f q k
    let fuel := least + text.size + 3
    match appetite with
    | .greedy => greedily step least most k fuel 0 none p
    | .lazy => lazily step least most k fuel 0 none p
    | .possessive =>
      match possessively step least most fuel 0 none p with
      | some q => k q
      | none => none
  | .group index on off body, f, p, k =>
    match index with
    | none => body.run text (f.scope on off) p k
    | some i =>
      body.run text f (p.mark (2 * (i - 1))) fun q => k (q.mark (2 * (i - 1) + 1))
  | .atomic body, f, p, k =>
    match body.run text f p some with
    | some q => k q
    | none => none
  | .ahead negated body, f, p, k =>
    match body.run text f p some, negated with
    | some q, false => k { q with pos := p.pos }
    | none, true => k p
    | _, _ => none
  | .behind negated least _ body, f, p, k =>
    let found :=
      if p.pos < least then none else body.run text f { p with pos := p.pos - least } some
    match found, negated with
    | some q, false => k { q with pos := p.pos }
    | none, true => k p
    | _, _ => none
  | .backref i, f, p, k =>
    match p.span? i with
    | some (s, e) =>
      if p.pos + (e - s) ≤ text.size && sameSpan text f s p.pos (e - s) then k (p.move (e - s))
      else none
    | none => none
  | .conditional i yes no, f, p, k =>
    match p.span? i with
    | some _ => yes.run text f p k
    | none => no.run text f p k

end Conform.Pattern
