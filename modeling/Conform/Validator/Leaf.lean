import Conform.Finding
import Conform.Interruption
import Conform.Json.Printer
import Conform.Pattern.Basic
import Conform.Schema
import Conform.Value.Basic

/-!
The checks of single values against the constraints of a schema: sizes of arrays, lengths and
patterns of texts, bounds and multiples of numbers, and listed values.
-/

namespace Conform

/-- What a check yields at some point: a finding, or the end of everything. -/
abbrev Notice := Except Interruption Finding

namespace Notice

/-- The findings, if nothing put an end to them. -/
def gather : List Notice → Except Interruption (List Finding)
  | [] => .ok []
  | .error e :: _ => .error e
  | .ok f :: r =>
    match gather r with
    | .ok fs => .ok (f :: fs)
    | .error e => .error e

def ofFindings (fs : List Finding) : List Notice := fs.map .ok

@[simp] theorem ok_mem_ofFindings {f : Finding} {fs : List Finding} :
    (.ok f : Notice) ∈ ofFindings fs ↔ f ∈ fs := by
  simp [ofFindings]

@[simp] theorem error_notMem_ofFindings {i : Interruption} {fs : List Finding} :
    (.error i : Notice) ∉ ofFindings fs := by
  simp [ofFindings]

@[simp] theorem gather_ofFindings (fs : List Finding) : gather (ofFindings fs) = .ok fs := by
  induction fs with
  | nil => rfl
  | cons f r ih => simp only [ofFindings, List.map_cons] at ih ⊢; simp [gather, ih]

theorem eq_ofFindings_of_gather {ns : List Notice} {fs : List Finding} (h : gather ns = .ok fs) :
    ns = ofFindings fs := by
  fun_induction gather ns generalizing fs with
  | case1 => cases h; rfl
  | case2 => cases h
  | case3 f r gs hr ih => cases h; rw [ih hr]; rfl
  | case4 => cases h

theorem error_mem_of_gather {ns : List Notice} {i : Interruption} (h : gather ns = .error i) :
    .error i ∈ ns := by
  fun_induction gather ns with
  | case1 => cases h
  | case2 => cases h; exact List.mem_cons_self
  | case3 => cases h
  | case4 f r j hr ih => cases h; exact List.mem_cons_of_mem _ (ih hr)

end Notice

namespace Validator

/-- A finding if a keyword is set and violated. -/
def whenSet {α : Type} (setting : Option α) (violated : α → Bool) (finding : α → Finding) :
    List Finding :=
  match setting with
  | some x => if violated x then [finding x] else []
  | none => []

@[simp] theorem whenSet_none {α : Type} (violated : α → Bool) (finding : α → Finding) :
    whenSet none violated finding = [] := rfl

@[simp] theorem mem_whenSet {α : Type} {setting : Option α} {violated : α → Bool}
    {finding : α → Finding} {f : Finding} :
    f ∈ whenSet setting violated finding ↔
      ∃ x, setting = some x ∧ violated x = true ∧ f = finding x := by
  cases setting with
  | none => simp
  | some x => simp only [whenSet]; split <;> simp_all

def sizeFindings (s : Schema) (path : String) (count : Nat) : List Finding :=
  let found := "array with " ++ toString count ++ " items"
  whenSet s.minItems (fun n => count < n) (fun n =>
    .invalidValue path ("Array has fewer items than required minimum of " ++ toString n)
      ("array with min " ++ toString n ++ " items") found) ++
  whenSet s.maxItems (fun n => n < count) (fun n =>
    .invalidValue path ("Array has more items than allowed maximum of " ++ toString n)
      ("array with max " ++ toString n ++ " items") found)

def lengthFindings (s : Schema) (path : String) (length : Nat) : List Finding :=
  let found := "length " ++ toString length
  whenSet s.minLength (fun n => length < n) (fun n =>
    .invalidValue path ("String is shorter than required minimum length " ++ toString n)
      ("length >= " ++ toString n) found) ++
  whenSet s.maxLength (fun n => n < length) (fun n =>
    .invalidValue path ("String is longer than allowed maximum length " ++ toString n)
      ("length <= " ++ toString n) found)

/-- A text against a pattern; a pattern that is refused for its syntax is a finding too. -/
def patternNotices (pattern path text shown : String) : List Notice :=
  match Pattern.compile pattern with
  | .ok p => if p.occursIn text then [] else [.ok (.invalidFormat path pattern shown)]
  | .error (.fault f) =>
    [.ok (.other path ("Invalid regex pattern in schema: " ++ f.message pattern.toList))]
  | .error (.interrupted i) => [.error i]

/-- A text against the constraints on texts; `shown` is how the value is displayed. -/
def textNotices (s : Schema) (path text shown : String) : List Notice :=
  Notice.ofFindings (lengthFindings s path text.length) ++
    match s.pattern with
    | some p => patternNotices p path text shown
    | none => []

def numberFindings (s : Schema) (path : String) (n : Number) : List Finding :=
  let found := n.text
  whenSet s.minimum (fun b => n.lt b) (fun b =>
    .invalidValue path ("Number is less than required minimum " ++ b.text) (">= " ++ b.text)
      found) ++
  whenSet s.maximum (fun b => b.lt n) (fun b =>
    .invalidValue path ("Number is greater than allowed maximum " ++ b.text) ("<= " ++ b.text)
      found) ++
  whenSet s.exclusiveMinimum (fun b => n.le b) (fun b =>
    .invalidValue path ("Number must be greater than " ++ b.text) ("> " ++ b.text) found) ++
  whenSet s.exclusiveMaximum (fun b => b.le n) (fun b =>
    .invalidValue path ("Number must be less than " ++ b.text) ("< " ++ b.text) found) ++
  whenSet s.multipleOf (fun b => n.offMultiple b) (fun b =>
    .invalidValue path ("Number must be a multiple of " ++ b.text) ("multiple of " ++ b.text) found)

/-- A number against the constraints on numbers; it has to be told, whatever comes of them. -/
def numberNotices (s : Schema) (path : String) (n : Number) : List Notice :=
  if n.isWritable then Notice.ofFindings (numberFindings s path n) else [.error .numberTooLong]

def enumFindings (s : Schema) (path : String) (v : Value) : List Finding :=
  whenSet s.enum (fun js => !js.any fun j => v.equals j) (fun js =>
    let allowed := ", ".intercalate (js.map Json.text)
    .invalidValue path ("Value must be one of: " ++ allowed) ("one of [" ++ allowed ++ "]")
      (v.display Value.displayLimit))

end Validator

end Conform
