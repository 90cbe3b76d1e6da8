import Conform.Engine
import Conform.Sample.Basic
import Conform.Sample.Bundled

/-!
A shelf of files that remembers what was parsed of them, in one dictionary for documents and schemas.
An entry is kept under the path of its file with the time and the size that the file had. What is
parsed takes the place of all entries of its path; a failure to parse, or the removal of a file,
changes no entry.
-/

namespace Conform

structure File where
  bytes : List UInt8
  /-- The time of the last change, in nanoseconds. -/
  time : Int

/-- Why a sample cannot be loaded. -/
inductive LoadFailure where
  | unknown (name : String)
  | missing (name : String)
  | failed (f : Failure)
  deriving DecidableEq

def LoadFailure.message : LoadFailure → String
  | .unknown name => name
  | .missing name => "No such file: '" ++ name ++ "'"
  | .failed f => f.message

/-- What has been loaded, and whether it was remembered. -/
structure Loaded (α : Type) where
  content : α
  remembered : Bool

/-! ### What is remembered -/

/-- What a file is known by. -/
structure Identity where
  path : String
  time : Int
  size : Nat
  deriving DecidableEq, Repr

inductive Parsed where
  | document (v : Value)
  | schema (s : Schema)

abbrev Cache := Members Parsed Identity

namespace Cache

variable {c : Cache} {k l : Identity} {p : Parsed} {path : String}

/-- Drops all that is kept of a path, one entry after the other. -/
def evict (path : String) (c : Cache) : Cache :=
  (c.keys.filter fun k => k.path == path).foldl (fun c k => c.erase k) c

/-- Keeps what was parsed of a file, and nothing else of its path. -/
def keep (k : Identity) (p : Parsed) (c : Cache) : Cache := (c.evict k.path).put k p

theorem foldl_erase (ks : List Identity) (c : Cache) :
    ks.foldl (fun c k => c.erase k) c = c.filter fun x => !ks.contains x.1 := by
  induction ks generalizing c with
  | nil => exact (List.filter_eq_self.mpr fun _ _ => rfl).symm
  | cons k r ih =>
    rw [List.foldl_cons, ih, Members.erase, List.filter_filter]
    refine List.filter_congr fun x _ => ?_
    rw [List.contains_cons, Bool.not_or, Bool.and_comm]
    rfl

theorem evict_eq_filter (path : String) (c : Cache) :
    c.evict path = c.filter fun x => x.1.path != path := by
  rw [evict, foldl_erase]
  refine List.filter_congr fun x hx => ?_
  have hkey : x.1 ∈ c.keys := Members.mem_keys_of_mem hx
  rw [bne, Bool.not_inj_iff, Bool.eq_iff_iff]
  simp [hkey]

/-- What was parsed comes last, after all that is kept of other paths. -/
theorem keep_eq_append (k : Identity) (p : Parsed) (c : Cache) :
    c.keep k p = (c.filter fun x => x.1.path != k.path) ++ [(k, p)] := by
  rw [keep, evict_eq_filter]
  refine Members.put_of_notMem fun hk => ?_
  obtain ⟨x, hx, hkey⟩ := List.mem_map.mp hk
  simp [hkey] at hx

theorem mem_keep {x : Identity × Parsed} :
    x ∈ c.keep k p ↔ x ∈ c ∧ x.1.path ≠ k.path ∨ x = (k, p) := by
  simp [keep_eq_append]

theorem nodup_paths_keep (h : (c.map fun x => x.1.path).Nodup) :
    ((c.keep k p).map fun x => x.1.path).Nodup := by
  rw [keep_eq_append, List.map_append, List.nodup_append]
  refine ⟨h.sublist (List.filter_sublist.map _), List.pairwise_singleton .., ?_⟩
  rintro path hpath _ hk rfl
  obtain ⟨x, hx, hxp⟩ := List.mem_map.mp hpath
  simp_all

end Cache

/-- How one sort of samples is loaded: their names, how each is read, and how what is read of it is
an entry. -/
structure Reader (α : Type) where
  names : List String
  read : String → Source → Except Failure α
  parsed : α → Parsed
  content? : Parsed → Option α
  content?_eq : ∀ p a, content? p = some a ↔ p = parsed a

namespace Reader

/-- Documents are read in the format that their name tells. -/
def documents [Toml.Decoder] : Reader Value where
  names := Sample.documents
  read name := (Sample.dialectOf name).readDocument
  parsed := .document
  content?
    | .document v => some v
    | .schema _ => none
  content?_eq p a := by cases p <;> simp

def schemas : Reader Schema where
  names := Sample.schemas
  read _ := Schema.read
  parsed := .schema
  content?
    | .document _ => none
    | .schema s => some s
  content?_eq p a := by cases p <;> simp

end Reader

/-! ### The shelf -/

/-- The files of a directory, and what is remembered of them. -/
structure Shelf where
  files : Members File := []
  directory : String := ""
  cache : Cache := []

namespace Shelf

def bundled : Shelf :=
  { files := Sample.Bundled.files.map fun p => (p.1, ⟨Text.Utf8.encode p.2.toList, 0⟩) }

/-- The shelf of a directory: the bundled files when it has no name, and else at first none. -/
def ofDirectory (name : String) : Shelf :=
  if name.isEmpty then bundled else { directory := name }

def write (s : Shelf) (name : String) (f : File) : Shelf :=
  { s with files := Members.put name f s.files }

def remove (s : Shelf) (name : String) : Except LoadFailure Shelf :=
  match Members.get? s.files name with
  | some _ => .ok { s with files := Members.erase name s.files }
  | none => .error (.missing name)

def forget (s : Shelf) : Shelf := { s with cache := [] }

def remembered (s : Shelf) : Nat := s.cache.length

def path (s : Shelf) (name : String) : String := s.directory ++ "/" ++ name

def identity (s : Shelf) (name : String) (f : File) : Identity :=
  ⟨s.path name, f.time, f.bytes.length⟩

/-- The file of a sample; only the given names are samples. -/
def file (s : Shelf) (names : List String) (name : String) : Except LoadFailure File :=
  if names.contains name then
    match Members.get? s.files name with
    | some f => .ok f
    | none => .error (.missing name)
  else .error (.unknown name)

def bytes (s : Shelf) (name : String) : Except LoadFailure (List UInt8) :=
  (s.file (Sample.documents ++ Sample.schemas) name).map (·.bytes)

/-- Loads a sample: what is kept of its file as it is now, or else what is parsed of it. An entry of
the other sort does not count, but there is none: no document has the name of a schema. -/
def load {α : Type} (s : Shelf) (r : Reader α) (name : String) :
    Except LoadFailure (Loaded α) × Shelf :=
  match s.file r.names name with
  | .error e => (.error e, s)
  | .ok f =>
    match (s.cache.get? (s.identity name f)).bind r.content? with
    | some a => (.ok ⟨a, true⟩, s)
    | none =>
      match r.read name (.bytes f.bytes) with
      | .ok a => (.ok ⟨a, false⟩, { s with cache := s.cache.keep (s.identity name f) (r.parsed a) })
      | .error e => (.error (.failed e), s)

def loadDocument [Toml.Decoder] (s : Shelf) (name : String) :
    Except LoadFailure (Loaded Value) × Shelf :=
  s.load .documents name

def loadSchema (s : Shelf) (name : String) : Except LoadFailure (Loaded Schema) × Shelf :=
  s.load .schemas name

/-- Loads schemas up to the first that fails. -/
def loadSchemas (s : Shelf) : List String → Except LoadFailure Unit × Shelf
  | [] => (.ok (), s)
  | name :: r =>
    match s.loadSchema name with
    | (.ok _, s) => loadSchemas s r
    | (.error e, s) => (.error e, s)

/-- Validates a sample, loading its document before its schema. -/
def validate [Toml.Decoder] (s : Shelf) (e : Engine) (name : String) :
    Except LoadFailure Outcome × Shelf :=
  match s.loadDocument name with
  | (.error f, s) => (.error f, s)
  | (.ok document, s) =>
    match Sample.find? name with
    | none => (.error (.unknown name), s)
    | some sample =>
      match s.loadSchema sample.schema with
      | (.error f, s) => (.error f, s)
      | (.ok schema, s) =>
        let result := e.validateParsed sample.dialect document.content schema.content
        (result.mapError fun i => .failed (.interrupted i), s)

end Shelf

end Conform
