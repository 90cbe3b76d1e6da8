import Conform.Pattern.Matcher
import Conform.Pattern.Reader

/-!
Patterns of strings. A pattern is a regular expression that was read and checked; it matches a
text if it matches somewhere in it.
-/

namespace Conform

structure Pattern where
  root : Pattern.Node
  flags : Pattern.Flags
  groups : Nat
  deriving Repr, Inhabited

namespace Pattern

def compile (source : String) : Except Refusal Pattern := do
  let cs := source.toList
  let (next, rest, offset) ← Reader.token? cs 0
  let state : State := { next, rest, offset }
  let ((root, flags, groups), _) ← (Reader.expression (8 * (cs.length + 2))).run state
  match root.check flags.template with
  | .error cause => throw (.fault ⟨cause, none⟩)
  | .ok () => pure { root, flags, groups }

/-- Whether the pattern matches at some place from `start` on. -/
def matchesFrom (p : Pattern) (text : Array Nat) : (count start : Nat) → Bool
  | 0, _ => false
  | n + 1, start =>
    let place : Place := { pos := start, marks := Array.replicate (2 * p.groups) none }
    (p.root.run text p.flags place some).isSome || p.matchesFrom text n (start + 1)

def occursIn (p : Pattern) (s : String) : Bool :=
  let text := (s.toList.map Char.toNat).toArray
  p.matchesFrom text (text.size + 1) 0

end Pattern

end Conform
