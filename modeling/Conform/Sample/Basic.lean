import Conform.Dialect

/-!
The samples: documents to try, each with the schema that it is meant for.
-/

namespace Conform

/-- A sample document and the schema that it is meant for, by name. -/
structure Sample where
  name : String
  schema : String
  deriving DecidableEq, Repr

namespace Sample

def all : List Sample :=
  [⟨"valid-person.json", "sample-schema.json"⟩,
   ⟨"invalid-person.json", "sample-schema.json"⟩,
   ⟨"valid-config.toml", "config-schema.json"⟩,
   ⟨"invalid-config.toml", "config-schema.json"⟩]

def documents : List String := all.map (·.name)

/-- The names of the schemas, sorted. -/
def schemas : List String := ["config-schema.json", "sample-schema.json"]

def find? (name : String) : Option Sample := all.find? fun s => s.name == name

def dialectOf (name : String) : Dialect :=
  if ".toml".toList.isSuffixOf name.toList then .toml else .json

def dialect (s : Sample) : Dialect := dialectOf s.name

theorem schema_mem_schemas {s : Sample} (h : s ∈ all) : s.schema ∈ schemas := by
  simp only [all, List.mem_cons, List.not_mem_nil, or_false] at h
  rcases h with rfl | rfl | rfl | rfl <;> simp [schemas]

end Sample

end Conform
