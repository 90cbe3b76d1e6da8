import Conform.Json.Basic
import Conform.Json.Quoted

/-!
Writing JSON on one line, in ASCII: a blank follows every comma and colon. Infinities and
not-a-number have words of their own.
-/

namespace Conform

/-- A number as JSON; the three values that JSON lacks are written as words. -/
def Number.jsonText : Number → String
  | .int n => toString n
  | .double .nan => "NaN"
  | .double (.infinite negative) => if negative then "-Infinity" else "Infinity"
  | .double x => x.text

namespace Json

mutual

def text : Json → String
  | .null => "null"
  | .bool b => if b then "true" else "false"
  | .number n => n.jsonText
  | .string s => quoted .ascii s
  | .array items => "[" ++ ", ".intercalate (itemTexts items) ++ "]"
  | .object members => "\x7b" ++ ", ".intercalate (memberTexts members) ++ "\x7d"

def itemTexts : List Json → List String
  | [] => []
  | j :: r => text j :: itemTexts r

def memberTexts : List (String × Json) → List String
  | [] => []
  | (k, j) :: r => (quoted .ascii k ++ ": " ++ text j) :: memberTexts r

end

end Json

end Conform
