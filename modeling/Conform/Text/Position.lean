/-!
Places in a text of several lines.
-/

namespace Conform.Text

/-- The line and column of an offset, both counted from one. -/
def lineColumn (text : List Char) (position : Nat) : Nat × Nat :=
  let before := text.take position
  (before.count '\n' + 1, (before.reverse.takeWhile (· != '\n')).length + 1)

end Conform.Text
