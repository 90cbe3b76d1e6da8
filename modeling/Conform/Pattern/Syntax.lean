/-!
Regular expressions as trees. Characters are code points, since an escape can name one that no
text holds. A sequence is a chain of `cat`, a choice a chain of `alt`.
-/

namespace Conform.Pattern

structure Flags where
  ignoreCase : Bool := false
  multiline : Bool := false
  dotAll : Bool := false
  verbose : Bool := false
  ascii : Bool := false
  unicode : Bool := false
  template : Bool := false
  deriving DecidableEq, Repr, Inhabited

namespace Flags

def union (a b : Flags) : Flags where
  ignoreCase := a.ignoreCase || b.ignoreCase
  multiline := a.multiline || b.multiline
  dotAll := a.dotAll || b.dotAll
  verbose := a.verbose || b.verbose
  ascii := a.ascii || b.ascii
  unicode := a.unicode || b.unicode
  template := a.template || b.template

def diff (a b : Flags) : Flags where
  ignoreCase := a.ignoreCase && !b.ignoreCase
  multiline := a.multiline && !b.multiline
  dotAll := a.dotAll && !b.dotAll
  verbose := a.verbose && !b.verbose
  ascii := a.ascii && !b.ascii
  unicode := a.unicode && !b.unicode
  template := a.template && !b.template

def inter (a b : Flags) : Flags := a.diff (a.diff b)

def none : Flags := {}

def namesCharset (f : Flags) : Bool := f.ascii || f.unicode

def ofLetter? : Char → Option Flags
  | 'i' => some { ignoreCase := true }
  | 'm' => some { multiline := true }
  | 's' => some { dotAll := true }
  | 'x' => some { verbose := true }
  | 'a' => some { ascii := true }
  | 'u' => some { unicode := true }
  | 't' => some { template := true }
  | _ => Option.none

/-- The flags inside a group that turns some on and some off. Naming a character set replaces the
one in force. -/
def scope (outer on off : Flags) : Flags :=
  let outer := if on.namesCharset then { outer with ascii := false, unicode := false } else outer
  (outer.union on).diff off

end Flags

inductive Category where
  | digit
  | space
  | word
  deriving DecidableEq, Repr

inductive Member where
  | char (c : Nat)
  | range (low high : Nat)
  | category (k : Category) (negated : Bool)
  deriving DecidableEq, Repr

inductive Anchor where
  | lineStart
  | lineEnd
  | textStart
  | textEnd
  | boundary
  | noBoundary
  deriving DecidableEq, Repr

/-- How a repetition goes about it: longest first, shortest first, or longest without giving back.
-/
inductive Appetite where
  | greedy
  | lazy
  | possessive
  deriving DecidableEq, Repr

inductive Node where
  | empty
  | cat (a b : Node)
  | alt (a b : Node)
  | char (c : Nat)
  | notChar (c : Nat)
  | any
  | set (negated : Bool) (members : List Member)
  | anchor (a : Anchor)
  | again (appetite : Appetite) (least : Nat) (most : Option Nat) (body : Node)
  | group (index : Option Nat) (on off : Flags) (body : Node)
  | atomic (body : Node)
  | ahead (negated : Bool) (body : Node)
  /-- Looks back; `least` and `most` bound how far the body can reach. -/
  | behind (negated : Bool) (least most : Nat) (body : Node)
  | backref (index : Nat)
  | conditional (index : Nat) (yes no : Node)
  deriving Repr, Inhabited

namespace Node

def ofList : List Node → Node
  | [] => .empty
  | [n] => n
  | n :: r => .cat n (ofList r)

def ofAlternatives : List Node → Node
  | [] => .empty
  | [n] => n
  | n :: r => .alt n (ofAlternatives r)

/-- No expression is counted wider than this. -/
def widest : Nat := 0x10000000000000000

private def clip (n : Nat) : Nat := if n ≤ widest then n else widest

/-- The least and the greatest number of characters that an expression takes, given the widths of
the groups it refers to. -/
def width (groups : Nat → Nat × Nat) : Node → Nat × Nat
  | .empty | .anchor _ | .ahead _ _ | .behind _ _ _ _ => (0, 0)
  | .char _ | .notChar _ | .any | .set _ _ => (1, 1)
  | .cat a b =>
    let (l, h) := a.width groups
    let (l', h') := b.width groups
    (clip (l + l'), clip (h + h'))
  | .alt a b =>
    let (l, h) := a.width groups
    let (l', h') := b.width groups
    (min l l', max h h')
  | .again _ least most body =>
    let (l, h) := body.width groups
    (clip (l * least), match most with
      | some n => clip (h * n)
      | none => if h = 0 then 0 else widest)
  | .group _ _ _ body | .atomic body => body.width groups
  | .backref i => groups i
  | .conditional _ yes no =>
    let (l, h) := yes.width groups
    let (l', h') := no.width groups
    (min l l', max h h')

end Node

end Conform.Pattern
