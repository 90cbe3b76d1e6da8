import Conform.Text.Ranges
import Conform.Text.Hex

/-!
Names in messages, between quotes. Single quotes are used unless the name holds one and no double
quote. Control, format, separator and private characters are written as escapes.
-/

namespace Conform.Text

/-- Ranges of the control, format, separator and private characters, the space apart. -/
def unprintableBounds : List Nat :=
  [0x0, 0x20, 0x7f, 0xa1, 0xad, 0xae, 0x600, 0x606, 0x61c, 0x61d, 0x6dd, 0x6de, 0x70f, 0x710,
   0x890, 0x892, 0x8e2, 0x8e3, 0x1680, 0x1681, 0x180e, 0x180f, 0x2000, 0x2010, 0x2028, 0x2030,
   0x205f, 0x2065, 0x2066, 0x2070, 0x3000, 0x3001, 0xe000, 0xf900, 0xfeff, 0xff00, 0xfff9, 0xfffc,
   0x110bd, 0x110be, 0x110cd, 0x110ce, 0x13430, 0x13439, 0x1bca0, 0x1bca4, 0x1d173, 0x1d17b,
   0xe0001, 0xe0002, 0xe0020, 0xe0080, 0xf0000, 0xffffe, 0x100000, 0x10fffe]

def isPrintable (c : Nat) : Bool := !covers unprintableBounds c

/-- One character of a quoted name; `quote` is the quote around it. -/
def quotedChar (quote : Char) (c : Char) : String :=
  if c = quote || c = '\\' then String.ofList ['\\', c]
  else if c = '\t' then "\\t"
  else if c = '\n' then "\\n"
  else if c = '\r' then "\\r"
  else if c.toNat < 0x7f || isPrintable c.toNat then
    if c.toNat < 0x20 then "\\x" ++ hexPadded 2 c.toNat else c.toString
  else if c.toNat < 0x100 then "\\x" ++ hexPadded 2 c.toNat
  else if c.toNat < 0x10000 then "\\u" ++ hexPadded 4 c.toNat
  else "\\U" ++ hexPadded 8 c.toNat

def quoted (s : String) : String :=
  let quote := if s.toList.contains '\'' && !s.toList.contains '"' then '"' else '\''
  quote.toString ++ String.join (s.toList.map (quotedChar quote)) ++ quote.toString

end Conform.Text
