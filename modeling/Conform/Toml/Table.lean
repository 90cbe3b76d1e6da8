import Conform.Toml.Basic

/-!
Building the tables of a document. Headers, dotted keys and values each may define a table once; a
table that was only passed through on the way to another may still get its header.
-/

namespace Conform.Toml

/-- How a table came about. -/
inductive Origin where
  | header
  | passedThrough
  | dottedKey
  deriving DecidableEq, Repr

/-- A part of a document in the making: a finished value, a table that may grow, or an array of
tables, of which the latest comes first and may grow. -/
inductive Node where
  | value (i : Item)
  | table (origin : Origin) (members : List (String × Node))
  | tables (latestFirst : List (List (String × Node)))
  deriving Inhabited

namespace Node

mutual

def toItem : Node → Item
  | .value i => i
  | .table _ ms => .table (toItems ms)
  | .tables es => .array (toTables es [])

def toItems : List (String × Node) → List (String × Item)
  | [] => []
  | (k, n) :: r => (k, toItem n) :: toItems r

/-- The tables in the order in which they were begun. -/
def toTables : List (List (String × Node)) → List Item → List Item
  | [], done => done
  | ms :: r, done => toTables r (.table (toItems ms) :: done)

end

end Node

namespace Tables

abbrev Growing := Members Node

/-- Changes the table at a path; of an array of tables, the latest. -/
def change (f : Growing → Except Fault Growing) : List String → Growing → Except Fault Growing
  | [], ms => f ms
  | k :: r, ms =>
    match ms.get? k with
    | some (.table o inner) => do pure (ms.put k (.table o (← change f r inner)))
    | some (.tables (latest :: es)) => do pure (ms.put k (.tables ((← change f r latest) :: es)))
    | _ => .error (.decodeError none)

/-- Goes to the last key of a header, making the tables on the way. -/
def passing (f : String → Growing → Except Fault Growing) :
    List String → Growing → Except Fault Growing
  | [], _ => .error (.decodeError none)
  | [k], ms => f k ms
  | k :: r, ms =>
    match ms.get? k with
    | none => do pure (ms.put k (.table .passedThrough (← passing f r [])))
    | some (.table o inner) => do pure (ms.put k (.table o (← passing f r inner)))
    | some (.tables (latest :: es)) => do pure (ms.put k (.tables ((← passing f r latest) :: es)))
    | some _ => .error (.decodeError none)

def begin (k : String) (ms : Growing) : Except Fault Growing :=
  match ms.get? k with
  | none => .ok (ms.put k (.table .header []))
  | some (.table .passedThrough inner) => .ok (ms.put k (.table .header inner))
  | some _ => .error (.decodeError none)

def beginNext (k : String) (ms : Growing) : Except Fault Growing :=
  match ms.get? k with
  | none => .ok (ms.put k (.tables [[]]))
  | some (.tables es) => .ok (ms.put k (.tables ([] :: es)))
  | some (.table .passedThrough _) | some (.value (.array _)) => .error (.decodeError none)
  | some (.table .header _) | some (.table .dottedKey _) => .error (.other (.noArray "dict"))
  | some (.value i) => .error (.other (.noArray i.sort))

def assign (i : Item) : List String → Growing → Except Fault Growing
  | [], _ => .error (.decodeError none)
  | [k], ms => if (ms.get? k).isSome then .error (.decodeError none) else .ok (ms.put k (.value i))
  | k :: r, ms =>
    match ms.get? k with
    | none => do pure (ms.put k (.table .dottedKey (← assign i r [])))
    | some (.table .header _) => .error (.decodeError none)
    | some (.table o inner) => do pure (ms.put k (.table o (← assign i r inner)))
    | some _ => .error (.decodeError none)

end Tables

end Conform.Toml
