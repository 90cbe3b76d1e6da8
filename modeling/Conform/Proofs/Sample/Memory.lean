import Mathlib.Tactic.Lemma
import Conform.Sample.Shelf

/-!
What a shelf remembers, over all that may happen to it. Files are written and removed, all is
forgotten, and samples are loaded. Every entry is what was parsed of some file that has been on the
shelf under the entry's path, and no path has two entries; each event keeps it so.
-/

namespace Conform

inductive Event where
  | write (name : String) (f : File)
  | remove (name : String)
  | forget
  | loadDocument (name : String)
  | loadSchema (name : String)

/-- What comes back: nothing, or what was to be loaded. -/
inductive Answer where
  | nothing
  | document (result : Except LoadFailure Value)
  | schema (result : Except LoadFailure Schema)

namespace Shelf

variable [Toml.Decoder]

/-- What comes back from an event, and the shelf after it. To remove a file that is not there
changes nothing. -/
def step (s : Shelf) : Event → Answer × Shelf
  | .write name f => (.nothing, s.write name f)
  | .remove name =>
    match s.remove name with
    | .ok s' => (.nothing, s')
    | .error _ => (.nothing, s)
  | .forget => (.nothing, s.forget)
  | .loadDocument name =>
    (.document ((s.loadDocument name).1.map Loaded.content), (s.loadDocument name).2)
  | .loadSchema name =>
    (.schema ((s.loadSchema name).1.map Loaded.content), (s.loadSchema name).2)

def answers (s : Shelf) : List Event → List Answer
  | [] => []
  | e :: r => (s.step e).1 :: answers (s.step e).2 r

def run (s : Shelf) : List Event → Shelf
  | [] => s
  | e :: r => run (s.step e).2 r

end Shelf

/-- The content of a file, parsed as the sample of its name is to be parsed. -/
inductive ParsedAs [Toml.Decoder] (name : String) (f : File) : Parsed → Prop where
  | document {v : Value} (sample : name ∈ Sample.documents)
      (read : (Sample.dialectOf name).readDocument (.bytes f.bytes) = .ok v) :
      ParsedAs name f (.document v)
  | schema {s : Schema} (sample : name ∈ Sample.schemas)
      (read : Schema.read (.bytes f.bytes) = .ok s) : ParsedAs name f (.schema s)

lemma Sample.documents_disjoint_schemas : ∀ name ∈ documents, name ∉ schemas := by
  decide

/-- A reader gives its samples what they are to be parsed as. -/
def Reader.Parses [Toml.Decoder] {α : Type} (r : Reader α) : Prop :=
  ∀ name ∈ r.names, ∀ (f : File) (p : Parsed),
    ParsedAs name f p ↔ ∃ a, r.read name (.bytes f.bytes) = .ok a ∧ p = r.parsed a

lemma Reader.parses_documents [Toml.Decoder] : Reader.documents.Parses := by
  intro name hn f p
  constructor
  · rintro (⟨-, h⟩ | ⟨hs, -⟩)
    · exact ⟨_, h, rfl⟩
    · exact absurd hs (Sample.documents_disjoint_schemas name hn)
  · rintro ⟨v, h, rfl⟩
    exact .document hn h

lemma Reader.parses_schemas [Toml.Decoder] : Reader.schemas.Parses := by
  intro name hn f p
  constructor
  · rintro (⟨hd, -⟩ | ⟨-, h⟩)
    · exact absurd hn (Sample.documents_disjoint_schemas name hd)
    · exact ⟨_, h, rfl⟩
  · rintro ⟨t, h, rfl⟩
    exact .schema hn h

namespace Shelf

/-! ### One load -/

section

variable {α : Type} {s s' : Shelf} {r : Reader α} {name : String} {f : File}

/-- All that looking for a file can come to. -/
lemma file_cases (s : Shelf) (names : List String) (name : String) :
    (name ∉ names ∧ s.file names name = .error (.unknown name)) ∨
    (name ∈ names ∧ Members.get? s.files name = none ∧
      s.file names name = .error (.missing name)) ∨
    ∃ f, name ∈ names ∧ Members.get? s.files name = some f ∧ s.file names name = .ok f := by
  by_cases hn : name ∈ names
  · have hc : names.contains name = true := List.contains_iff_mem.mpr hn
    cases hf : Members.get? s.files name with
    | none => exact Or.inr (Or.inl ⟨hn, rfl, by rw [file, if_pos hc, hf]⟩)
    | some f => exact Or.inr (Or.inr ⟨f, hn, rfl, by rw [file, if_pos hc, hf]⟩)
  · have hc : ¬names.contains name = true := fun h => hn (List.contains_iff_mem.mp h)
    exact Or.inl ⟨hn, by rw [file, if_neg hc]⟩

lemma file_eq_ok_iff {names : List String} :
    s.file names name = .ok f ↔ name ∈ names ∧ Members.get? s.files name = some f := by
  obtain ⟨hn, h⟩ | ⟨-, hg, h⟩ | ⟨g, hn, hg, h⟩ := s.file_cases names name
  · simp [h, hn]
  · simp [h, hg]
  · simp [h, hn, hg]

/-- All that loading can come to: there is no file, or an entry is found, or the file is parsed and
becomes an entry, or it is faulty; and only what is parsed changes the shelf. -/
lemma load_cases (s : Shelf) (r : Reader α) (name : String) :
    (∃ g, s.file r.names name = .error g ∧ s.load r name = (.error g, s)) ∨
    ∃ f, s.file r.names name = .ok f ∧
      ((∃ a, s.cache.get? (s.identity name f) = some (r.parsed a) ∧
        s.load r name = (.ok ⟨a, true⟩, s)) ∨
      (∃ a, r.read name (.bytes f.bytes) = .ok a ∧
        s.load r name = (.ok ⟨a, false⟩,
          { s with cache := s.cache.keep (s.identity name f) (r.parsed a) })) ∨
      ∃ e, r.read name (.bytes f.bytes) = .error e ∧
        s.load r name = (.error (.failed e), s)) := by
  cases hf : s.file r.names name with
  | error g => exact Or.inl ⟨g, rfl, by rw [load, hf]⟩
  | ok f =>
    refine Or.inr ⟨f, rfl, ?_⟩
    cases hk : (s.cache.get? (s.identity name f)).bind r.content? with
    | some a =>
      obtain ⟨p, hp, ha⟩ := Option.bind_eq_some_iff.mp hk
      obtain rfl := (r.content?_eq p a).mp ha
      exact Or.inl ⟨a, hp, by simp only [load, hf, hk]⟩
    | none =>
      cases hr : r.read name (.bytes f.bytes) with
      | ok a => exact Or.inr (Or.inl ⟨a, rfl, by simp only [load, hf, hk, hr]⟩)
      | error e => exact Or.inr (Or.inr ⟨e, rfl, by simp only [load, hf, hk, hr]⟩)

/-- A load leaves the shelf as it is, or parses a file and keeps what comes of it. -/
lemma load_eq_self_or_keep (s : Shelf) (r : Reader α) (name : String) :
    (s.load r name).2 = s ∨ ∃ f a, s.file r.names name = .ok f ∧
      r.read name (.bytes f.bytes) = .ok a ∧
      (s.load r name).2 = { s with cache := s.cache.keep (s.identity name f) (r.parsed a) } := by
  obtain ⟨g, -, h⟩ | ⟨f, hf, ⟨a, -, h⟩ | ⟨a, ha, h⟩ | ⟨e, -, h⟩⟩ := s.load_cases r name
  · exact Or.inl (by rw [h])
  · exact Or.inl (by rw [h])
  · exact Or.inr ⟨f, a, hf, ha, by rw [h]⟩
  · exact Or.inl (by rw [h])

lemma files_load (s : Shelf) (r : Reader α) (name : String) :
    (s.load r name).2.files = s.files := by
  obtain h | ⟨f, a, -, -, h⟩ := s.load_eq_self_or_keep r name <;> rw [h]

lemma directory_load (s : Shelf) (r : Reader α) (name : String) :
    (s.load r name).2.directory = s.directory := by
  obtain h | ⟨f, a, -, -, h⟩ := s.load_eq_self_or_keep r name <;> rw [h]

lemma remove_ok (h : s.remove name = .ok s') :
    s' = { s with files := Members.erase name s.files } := by
  unfold remove at h
  split at h <;> cases h
  rfl

/-- Files have one path only if they have one name. -/
lemma path_inj {other : String} : s.path name = s.path other ↔ name = other := by
  rw [path, path, String.append_right_inj]

end

/-! ### What stays so -/

section

variable [Toml.Decoder] {seen : String → File → Prop} {s s' : Shelf} {name : String} {f : File}
  {e : Event}

/-- The files of the shelf have been seen; so have those that the entries were parsed of, with the
time and the size of the entry, and no path has two entries. -/
structure Sound (seen : String → File → Prop) (s : Shelf) : Prop where
  files : ∀ name f, Members.get? s.files name = some f → seen name f
  parsed : ∀ x ∈ s.cache, ∃ name f, seen name f ∧ x.1 = s.identity name f ∧ ParsedAs name f x.2
  nodup : (s.cache.map fun x => x.1.path).Nodup

lemma sound_empty (files : Members File) (directory : String)
    (h : ∀ name f, Members.get? files name = some f → seen name f) :
    Sound seen { files, directory } :=
  ⟨h, List.forall_mem_nil _, List.nodup_nil⟩

lemma Sound.write (h : s.Sound seen) (hf : seen name f) : (s.write name f).Sound seen where
  files other g hg := by
    by_cases hn : name = other
    · subst hn
      cases (Members.get?_put_self name f s.files).symm.trans hg
      exact hf
    · exact h.files other g ((Members.get?_put_of_ne f s.files hn).symm.trans hg)
  parsed := h.parsed
  nodup := h.nodup

lemma Sound.remove (h : s.Sound seen) (hr : s.remove name = .ok s') : s'.Sound seen := by
  obtain rfl := remove_ok hr
  refine ⟨fun other g hg => ?_, h.parsed, h.nodup⟩
  by_cases hn : name = other
  · subst hn
    cases (Members.get?_erase_self name s.files).symm.trans hg
  · exact h.files other g ((Members.get?_erase_of_ne s.files hn).symm.trans hg)

lemma Sound.load {α : Type} {r : Reader α} (h : s.Sound seen) (hr : r.Parses) :
    (s.load r name).2.Sound seen := by
  obtain hl | ⟨f, a, hf, ha, hl⟩ := s.load_eq_self_or_keep r name
  · rwa [hl]
  · obtain ⟨hn, hg⟩ := file_eq_ok_iff.mp hf
    rw [hl]
    refine ⟨h.files, fun x hx => ?_, Cache.nodup_paths_keep h.nodup⟩
    obtain ⟨hx, -⟩ | rfl := Cache.mem_keep.mp hx
    · exact h.parsed x hx
    · exact ⟨name, f, h.files name f hg, rfl, (hr name hn f _).mpr ⟨a, ha, rfl⟩⟩

/-- Every event keeps a shelf sound, if what it writes counts as seen. -/
theorem Sound.step (h : s.Sound seen) (hw : ∀ name f, e = .write name f → seen name f) :
    (s.step e).2.Sound seen := by
  cases e with
  | write name f => exact h.write (hw name f rfl)
  | remove name =>
    rw [Shelf.step]
    split
    · next s' hr => exact h.remove hr
    · exact h
  | forget => exact ⟨h.files, List.forall_mem_nil _, List.nodup_nil⟩
  | loadDocument name => exact h.load Reader.parses_documents
  | loadSchema name => exact h.load Reader.parses_schemas

lemma directory_step (s : Shelf) (e : Event) : (s.step e).2.directory = s.directory := by
  cases e with
  | write | forget => rfl
  | remove name =>
    rw [Shelf.step]
    split
    · next s' hr => rw [remove_ok hr]
    · rfl
  | loadDocument name => exact s.directory_load _ name
  | loadSchema name => exact s.directory_load _ name

lemma directory_run (s : Shelf) (events : List Event) : (s.run events).directory = s.directory := by
  induction events generalizing s with
  | nil => rfl
  | cons e r ih => exact (ih _).trans (s.directory_step e)

/-- A run keeps a shelf sound, if all that it writes counts as seen. -/
lemma Sound.run {events : List Event} (h : s.Sound seen)
    (hw : ∀ name f, .write name f ∈ events → seen name f) : (s.run events).Sound seen := by
  induction events generalizing s with
  | nil => exact h
  | cons e r ih =>
    have hnext : (s.step e).2.Sound seen :=
      h.step fun name f he => hw name f (he ▸ List.mem_cons_self)
    exact ih hnext fun name f hm => hw name f (List.mem_cons_of_mem _ hm)

end

end Shelf

end Conform
