import Conform.Text.Hex

/-!
JSON strings as they are written: quotes, backslashes and control characters are escaped, and,
where only ASCII may be written, every other character too, beyond the first plane as two escapes.
-/

namespace Conform.Json

/-- How much is escaped. -/
inductive Charset where
  | ascii
  | unicode
  deriving DecidableEq

private def unicodeEscape (n : Nat) : List Char := '\\' :: 'u' :: (Text.hexPadded 4 n).toList

def escaped (set : Charset) (c : Char) : List Char :=
  if c = '"' then ['\\', '"']
  else if c = '\\' then ['\\', '\\']
  else if c = '\n' then ['\\', 'n']
  else if c = '\r' then ['\\', 'r']
  else if c = '\t' then ['\\', 't']
  else if c = '\x0c' then ['\\', 'f']
  else if c = '\x08' then ['\\', 'b']
  else if c.toNat < 0x20 then unicodeEscape c.toNat
  else if set = .ascii && 0x7f ≤ c.toNat then
    if c.toNat < 0x10000 then unicodeEscape c.toNat
    else
      let n := c.toNat - 0x10000
      unicodeEscape (0xd800 + n / 0x400) ++ unicodeEscape (0xdc00 + n % 0x400)
  else [c]

def quoted (set : Charset) (s : String) : String :=
  String.ofList ('"' :: s.toList.flatMap (escaped set) ++ ['"'])

end Conform.Json
