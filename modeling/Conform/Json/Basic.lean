import Conform.Members
import Conform.Number.Numeral

/-!
Decoded JSON: the literals of schemas and the raw form of documents.
-/

namespace Conform

inductive Json where
  | null
  | bool (b : Bool)
  | number (n : Number)
  | string (s : String)
  | array (items : List Json)
  | object (members : List (String × Json))
  deriving Inhabited

namespace Json

mutual

/-- The number of containers around the innermost node. -/
def depth : Json → Nat
  | .array items => depthOfItems items + 1
  | .object members => depthOfMembers members + 1
  | _ => 0

def depthOfItems : List Json → Nat
  | [] => 0
  | j :: r => max (depth j) (depthOfItems r)

def depthOfMembers : List (String × Json) → Nat
  | [] => 0
  | (_, j) :: r => max (depth j) (depthOfMembers r)

end

mutual

/-- The same with null for every number that is not finite. -/
def finite : Json → Json
  | .number n => if n.isFinite then .number n else .null
  | .array items => .array (finiteItems items)
  | .object members => .object (finiteMembers members)
  | j => j

def finiteItems : List Json → List Json
  | [] => []
  | j :: r => finite j :: finiteItems r

def finiteMembers : List (String × Json) → List (String × Json)
  | [] => []
  | (k, j) :: r => (k, finite j) :: finiteMembers r

end

end Json

end Conform
