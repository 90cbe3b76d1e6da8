import Conform.Proofs.Sample.Memory
import Conform.Toml.Reader

/-!
Whether something is remembered cannot be told from what is loaded. Beside the shelf stand its files
alone, where each load reads what there is now. If no two files that are seen under a name share
time and size and differ in their bytes, then the entry of a file is what reading it gives, and the
shelf answers every event of every run as its files alone do.
-/

namespace Conform

namespace Files

def load {α : Type} (r : Reader α) (files : Members File) (name : String) :
    Except LoadFailure α :=
  if name ∈ r.names then
    match Members.get? files name with
    | some f => (r.read name (.bytes f.bytes)).mapError .failed
    | none => .error (.missing name)
  else .error (.unknown name)

variable [Toml.Decoder]

def step (files : Members File) : Event → Answer × Members File
  | .write name f => (.nothing, Members.put name f files)
  | .remove name => (.nothing, Members.erase name files)
  | .forget => (.nothing, files)
  | .loadDocument name => (.document (load .documents files name), files)
  | .loadSchema name => (.schema (load .schemas files name), files)

def answers (files : Members File) : List Event → List Answer
  | [] => []
  | e :: r => (step files e).1 :: answers (step files e).2 r

end Files

/-- Files that were seen under one name and have one time and one size do not differ. -/
def VersionsTell (seen : String → File → Prop) : Prop :=
  ∀ name f g, seen name f → seen name g → f.time = g.time → f.bytes.length = g.bytes.length →
    f.bytes = g.bytes

/-- The files that are there at first, and those that are written. -/
def Seen (files : Members File) (events : List Event) (name : String) (f : File) : Prop :=
  Members.get? files name = some f ∨ .write name f ∈ events

namespace Shelf

section

variable [Toml.Decoder] {seen : String → File → Prop} {s : Shelf} {name : String} {e : Event}

section

variable {α : Type} {r : Reader α} {f : File} {a : α}

/-- The entry of a file that is there is what reading it gives: it was parsed of a file with its
path, and so of its name, with its time and its size. -/
lemma Sound.read_eq (h : s.Sound seen) (hr : r.Parses) (hv : VersionsTell seen)
    (hf : s.file r.names name = .ok f)
    (hk : s.cache.get? (s.identity name f) = some (r.parsed a)) :
    r.read name (.bytes f.bytes) = .ok a := by
  obtain ⟨hn, hg⟩ := file_eq_ok_iff.mp hf
  obtain ⟨other, g, hseen, hid, hparsed⟩ := h.parsed _ (Members.mem_of_get? hk)
  obtain ⟨hpath, htime, hsize⟩ := Identity.mk.inj hid
  obtain rfl := path_inj.mp hpath
  obtain ⟨b, hb, heq⟩ := (hr name hn g _).mp hparsed
  obtain rfl : a = b := Option.some.inj <|
    ((r.content?_eq _ a).mpr rfl).symm.trans ((r.content?_eq _ b).mpr heq)
  rwa [hv name f g (h.files name f hg) hseen htime hsize]

lemma Sound.content_load (h : s.Sound seen) (hr : r.Parses) (hv : VersionsTell seen) :
    (s.load r name).1.map Loaded.content = Files.load r s.files name := by
  obtain ⟨g, hg, hl⟩ | ⟨f, hf, hl⟩ := s.load_cases r name
  · rw [hl, Files.load]
    obtain ⟨hn, hs⟩ | ⟨hn, hnone, hs⟩ | ⟨f, -, -, hs⟩ := s.file_cases r.names name
    · rw [if_neg hn]
      cases hs.symm.trans hg
      rfl
    · rw [if_pos hn, hnone]
      cases hs.symm.trans hg
      rfl
    · cases hs.symm.trans hg
  · obtain ⟨hn, hget⟩ := file_eq_ok_iff.mp hf
    have hload : Files.load r s.files name =
        (r.read name (.bytes f.bytes)).mapError .failed := by
      rw [Files.load, if_pos hn, hget]
    rw [hload]
    obtain ⟨a, hk, hl⟩ | ⟨a, ha, hl⟩ | ⟨e, he, hl⟩ := hl
    · rw [hl, h.read_eq hr hv hf hk]
      rfl
    · rw [hl, ha]
      rfl
    · rw [hl, he]
      rfl

end

/-! ### Runs -/

lemma files_step (s : Shelf) (e : Event) : (s.step e).2.files = (Files.step s.files e).2 := by
  cases e with
  | write | forget => rfl
  | remove name =>
    rw [step, Files.step, remove]
    split
    · next s' hr =>
      split at hr <;> cases hr
      rfl
    · next g hr =>
      split at hr <;> cases hr
      next hg => exact (Members.erase_of_get?_eq_none hg).symm
  | loadDocument name => exact s.files_load _ name
  | loadSchema name => exact s.files_load _ name

lemma Sound.answer_step (h : s.Sound seen) (hv : VersionsTell seen) :
    (s.step e).1 = (Files.step s.files e).1 := by
  cases e with
  | write | forget => rfl
  | remove name =>
    rw [Shelf.step]
    split <;> rfl
  | loadDocument name => exact congrArg _ (h.content_load Reader.parses_documents hv)
  | loadSchema name => exact congrArg _ (h.content_load Reader.parses_schemas hv)

/-- A sound shelf answers a run as its files alone do, if all that the run writes counts as seen. -/
lemma Sound.answers_eq {events : List Event} (h : s.Sound seen) (hv : VersionsTell seen)
    (hw : ∀ name f, .write name f ∈ events → seen name f) :
    s.answers events = Files.answers s.files events := by
  induction events generalizing s with
  | nil => rfl
  | cons e r ih =>
    have hnext : (s.step e).2.Sound seen :=
      h.step fun name f he => hw name f (he ▸ List.mem_cons_self)
    have hrest := ih hnext fun name f hm => hw name f (List.mem_cons_of_mem _ hm)
    rw [answers, Files.answers, h.answer_step hv, hrest, files_step]

/-- A shelf that remembers nothing yet, after a run: all that is on it and in its entries has been
seen. -/
lemma sound_run (files : Members File) (directory : String) (events : List Event) :
    (run { files, directory } events).Sound (Seen files events) :=
  (sound_empty files directory fun _ _ => Or.inl).run fun _ _ => Or.inr

/-- **Transparency**: a shelf that remembers nothing yet answers every event of a run as its files
alone do, if time and size tell the files apart that the run has under one name. -/
theorem answers_eq_files {files : Members File} {directory : String} {events : List Event}
    (h : VersionsTell (Seen files events)) :
    answers { files, directory } events = Files.answers files events :=
  (sound_empty files directory fun _ _ => Or.inl).answers_eq h fun _ _ => Or.inr

end

/-- A file that is edited, broken, taken away and brought back as it was. -/
theorem answers_edited :
    let name := "valid-person.json"
    let first : File := ⟨[0x31], 5⟩
    let broken : File := ⟨[0x5b], 7⟩
    let events : List Event :=
      [.write name first, .loadDocument name, .write name broken, .loadDocument name, .remove name,
        .loadDocument name, .write name first, .loadDocument name, .loadSchema name]
    VersionsTell (Seen [] events) ∧ answers {} events = Files.answers [] events := by
  intro name first broken events
  have h : VersionsTell (Seen [] events) := by
    have hseen : ∀ n f, Seen [] events n f → f = first ∨ f = broken := by
      rintro n f (hf | hf)
      · cases hf
      · simp only [events, List.mem_cons, Event.write.injEq, reduceCtorEq, List.not_mem_nil,
          false_or, or_false] at hf
        grind
    intro n f g hf hg hv _
    have hne : first.time ≠ broken.time := by decide
    rcases hseen n f hf with rfl | rfl <;> rcases hseen n g hg with rfl | rfl
    · rfl
    · exact absurd hv hne
    · exact absurd hv.symm hne
    · rfl
  exact ⟨h, answers_eq_files h⟩

end Shelf

end Conform
