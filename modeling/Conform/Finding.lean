/-!
Findings: what a validation has to say, one at a time, each with its path and kind.
-/

namespace Conform

inductive FindingKind where
  | invalidType
  | missingRequiredProperty
  | invalidFormat
  | invalidValue
  | tableNotFound
  | invalidArrayItemType
  | invalidDateTimeFormat
  | parseError
  | other
  deriving DecidableEq, Repr

namespace FindingKind

def name : FindingKind → String
  | .invalidType => "invalid-type"
  | .missingRequiredProperty => "missing-required-property"
  | .invalidFormat => "invalid-format"
  | .invalidValue => "invalid-value"
  | .tableNotFound => "table-not-found"
  | .invalidArrayItemType => "invalid-array-item-type"
  | .invalidDateTimeFormat => "invalid-datetime-format"
  | .parseError => "parse-error"
  | .other => "other"

def all : List FindingKind :=
  [.invalidType, .missingRequiredProperty, .invalidFormat, .invalidValue, .tableNotFound,
    .invalidArrayItemType, .invalidDateTimeFormat, .parseError, .other]

def ofName? (s : String) : Option FindingKind := all.find? fun k => k.name == s

theorem ofName?_name (k : FindingKind) : ofName? k.name = some k := by
  cases k <;> rfl

end FindingKind

/-- One finding. Some kinds tell what the schema asks for and what the document holds. -/
structure Finding where
  kind : FindingKind
  path : String
  message : String
  expected : Option String := none
  found : Option String := none
  deriving DecidableEq, Repr

namespace Finding

def display (f : Finding) : String := f.path ++ ": " ++ f.message

def invalidType (path expected found : String) (inArray : Bool) : Finding :=
  if inArray then
    { kind := .invalidArrayItemType, path, message := "Invalid array item type at '" ++ path ++ "'"
      expected := some expected, found := some found }
  else
    { kind := .invalidType, path, message := "Invalid type at '" ++ path ++ "'"
      expected := some expected, found := some found }

def missingProperty (path name : String) : Finding :=
  { kind := .missingRequiredProperty, path
    message := "Missing required property '" ++ name ++ "'" }

def tableNotFound (path name : String) : Finding :=
  { kind := .tableNotFound, path, message := "Table '" ++ name ++ "' not found"
    expected := some "table" }

def invalidFormat (path pattern found : String) : Finding :=
  { kind := .invalidFormat, path, message := "String does not match pattern"
    expected := some ("pattern: " ++ pattern), found := some found }

def invalidValue (path message expected found : String) : Finding :=
  { kind := .invalidValue, path, message, expected := some expected, found := some found }

def invalidDateTime (path expected found : String) : Finding :=
  { kind := .invalidDateTimeFormat, path
    message := "Invalid " ++ expected ++ " format at '" ++ path ++ "'"
    expected := some expected, found := some found }

def other (path message : String) : Finding :=
  { kind := .other, path, message }

def parseError (message : String) : Finding :=
  { kind := .parseError, path := "$", message }

end Finding

end Conform
