import Conform.Dialect
import Conform.Text.Hex
import Conform.Text.Utf8

/-!
Requests to the service, and the resources that they are for. A path is resolved before it is
taken apart: steps to the parent first, then the escapes of bytes. Slashes at its end do not
count.
-/

namespace Conform.Service

/-- A request: its method, its path with escapes and query, and its body, empty when there is
none. -/
structure Request where
  method : String
  path : String
  body : String := ""
  deriving DecidableEq, Repr

inductive Resource where
  | about
  | health
  | validation (d : Dialect)
  | samples
  | sample (name : String)
  | sampleValidation (name : String)
  deriving DecidableEq, Repr

namespace Target

def segments : List Char → List (List Char)
  | [] => [[]]
  | c :: r =>
    if c = '/' then [] :: segments r
    else
      match segments r with
      | [] => [[c]]
      | s :: rest => (c :: s) :: rest

/-- Follows the segments `.` and `..`; `done` holds those before in reverse. Nothing is above the
root. -/
def resolve (done : List (List Char)) : List (List Char) → List (List Char)
  | [] => done.reverse
  | s :: r =>
    if s = ['.'] then resolve done r
    else if s = ['.', '.'] then resolve (if done = [[]] then done else done.drop 1) r
    else resolve (s :: done) r

/-- The bytes of a path, each escape being one byte. -/
def unescape : List Char → List UInt8
  | '%' :: a :: b :: r =>
    match Text.hexValue? a, Text.hexValue? b with
    | some m, some n => UInt8.ofNat (16 * m + n) :: unescape r
    | _, _ => Text.Utf8.encode ['%'] ++ unescape (a :: b :: r)
  | c :: r => Text.Utf8.encode [c] ++ unescape r
  | [] => []

def withoutQuery (cs : List Char) : List Char := cs.takeWhile fun c => c != '?' && c != '#'

/-- The names on the way to a resource, the root having none. -/
def names (path : String) : List String :=
  let plain := ['/'].intercalate (resolve [] (segments (withoutQuery path.toList)))
  let all := segments (Text.Utf8.decodeReplacing (unescape plain))
  (((all.drop 1).reverse.dropWhile List.isEmpty).reverse).map String.ofList

end Target

namespace Resource

def ofNames? : List String → Option Resource
  | [] => some .about
  | ["api", "v1", "health"] => some .health
  | ["api", "v1", "validate", format] => (Dialect.ofName? format).map .validation
  | ["api", "v1", "samples"] => some .samples
  | ["api", "v1", "samples", name] => some (.sample name)
  | ["api", "v1", "samples", name, "validate"] =>
    if name.isEmpty then none else some (.sampleValidation name)
  | _ => none

def method : Resource → String
  | .about | .health | .samples | .sample _ => "GET"
  | .validation _ | .sampleValidation _ => "POST"

end Resource

/-- The resource that a request is for, whatever its method. -/
def Request.resource? (r : Request) : Option Resource := Resource.ofNames? (Target.names r.path)

end Conform.Service
