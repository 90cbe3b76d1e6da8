import Conform.Proofs.Sample.Transparency

/-!
What a shelf remembers, entry by entry. Whatever happens to a shelf, no path has two entries, and each
entry is what was parsed of a content that the file has had, at the time and of the size of the
entry. A load that fails changes nothing, and one that does not fail changes no entry of another
path.
-/

namespace Conform

def Event.Loads (name : String) : Event → Prop
  | .loadDocument n | .loadSchema n => n = name
  | .write _ _ | .remove _ | .forget => False

def Answer.Fails : Answer → Prop
  | .document (.error _) | .schema (.error _) => True
  | .document (.ok _) | .schema (.ok _) | .nothing => False

namespace Shelf

section

variable {α : Type} {r : Reader α} {s : Shelf} {name : String}

lemma load_of_error {g : LoadFailure} (h : (s.load r name).1 = .error g) :
    (s.load r name).2 = s := by
  obtain ⟨g, -, hl⟩ | ⟨f, -, ⟨a, -, hl⟩ | ⟨a, -, hl⟩ | ⟨e, -, hl⟩⟩ := s.load_cases r name
  · rw [hl]
  · rw [hl]
  · rw [hl] at h
    cases h
  · rw [hl]

/-- Loading drops and adds entries of one path only. -/
lemma mem_cache_load_of_ne {x : Identity × Parsed} (hx : x.1.path ≠ s.path name) :
    x ∈ (s.load r name).2.cache ↔ x ∈ s.cache := by
  obtain hl | ⟨f, a, -, -, hl⟩ := s.load_eq_self_or_keep r name
  · rw [hl]
  · have hne : x ≠ (s.identity name f, r.parsed a) := fun h => hx (h ▸ rfl)
    rw [hl]
    exact Cache.mem_keep.trans ⟨fun h => (h.resolve_right hne).1, fun h => Or.inl ⟨h, hx⟩⟩

end

section

variable [Toml.Decoder] {s : Shelf} {name : String} {e : Event}

lemma step_of_fails (h : (s.step e).1.Fails) : (s.step e).2 = s := by
  have load_fails {α : Type} {r : Reader α} {n : String} {answer : Except LoadFailure α → Answer}
      (hok : ∀ a, ¬(answer (.ok a)).Fails)
      (h : (answer ((s.load r n).1.map Loaded.content)).Fails) : (s.load r n).2 = s := by
    cases hl : (s.load r n).1 with
    | error g => exact load_of_error hl
    | ok x =>
      rw [hl] at h
      exact absurd h (hok x.content)
  cases e with
  | write | forget => exact h.elim
  | remove name =>
    rw [Shelf.step] at h
    split at h <;> exact h.elim
  | loadDocument n => exact load_fails (fun _ => id) h
  | loadSchema n => exact load_fails (fun _ => id) h

/-- A load changes no entry of another path. -/
lemma mem_cache_of_loads {x : Identity × Parsed} (hl : e.Loads name) (hx : x.1.path ≠ s.path name) :
    x ∈ (s.step e).2.cache ↔ x ∈ s.cache := by
  cases e with
  | write | remove | forget => exact hl.elim
  | loadDocument n =>
    obtain rfl : n = name := hl
    exact mem_cache_load_of_ne hx
  | loadSchema n =>
    obtain rfl : n = name := hl
    exact mem_cache_load_of_ne hx

/-- **What is remembered**: after every run of a shelf that remembers nothing at first, no path has
two entries, and each entry is what was parsed of a content that a file of its path had at the time
and of the size of the entry. From there a load that fails changes nothing, and a load of one file
changes no entry of another. -/
theorem entries_run (files : Members File) (directory : String) (events : List Event) :
    let s := run { files, directory } events
    (s.cache.map fun x => x.1.path).Nodup ∧
      (∀ x ∈ s.cache, ∃ name f, Seen files events name f ∧
        x.1 = ⟨directory ++ "/" ++ name, f.time, f.bytes.length⟩ ∧ ParsedAs name f x.2) ∧
      ∀ e, ((s.step e).1.Fails → (s.step e).2 = s) ∧
        ∀ name, e.Loads name → ∀ x : Identity × Parsed, x.1.path ≠ s.path name →
          (x ∈ (s.step e).2.cache ↔ x ∈ s.cache) := by
  intro s
  have hsound : s.Sound (Seen files events) := sound_run files directory events
  refine ⟨hsound.nodup, fun x hx => ?_, fun e => ?_⟩
  · obtain ⟨name, f, hseen, hid, hparsed⟩ := hsound.parsed x hx
    refine ⟨name, f, hseen, ?_, hparsed⟩
    rw [hid, identity, path, directory_run]
  · exact ⟨step_of_fails, fun name hl x hx => mem_cache_of_loads hl hx⟩

end

/-- A document that is read, edited and read again, then broken. The entry is that of the second
content alone, to load it fails and changes nothing, and to load a schema leaves it there. -/
theorem entries_run_broken :
    let name := "valid-person.json"
    let events : List Event :=
      [.write "sample-schema.json" ⟨[0x7b, 0x7d], 6⟩, .write name ⟨[0x31], 5⟩, .loadDocument name,
        .write name ⟨[0x31, 0x32], 5⟩, .loadDocument name, .write name ⟨[0x5b], 7⟩]
    let s := run { directory := "samples" } events
    let x : Identity × Parsed :=
      (⟨"samples/valid-person.json", 5, 2⟩, .document (.number .number (.int 12)))
    s.cache = [x] ∧
      (∃ n f, Seen [] events n f ∧ x.1 = ⟨"samples" ++ "/" ++ n, f.time, f.bytes.length⟩ ∧
        ParsedAs n f x.2) ∧
      (s.step (.loadDocument name)).1.Fails ∧ (s.step (.loadDocument name)).2 = s ∧
      x ∈ (s.step (.loadSchema "sample-schema.json")).2.cache := by
  intro name events s x
  obtain ⟨-, hparsed, hstep⟩ := entries_run [] "samples" events
  have hrun : run { directory := "samples" } events = s := rfl
  rw [hrun] at hparsed
  simp only [hrun] at hstep
  clear_value s
  have hformat : Sample.dialectOf name = .json := by decide
  have hfirst : Document.readJson (.bytes [0x31]) = .ok (.number .number (.int 1)) := by
    with_unfolding_all rfl
  have hsecond : Document.readJson (.bytes [0x31, 0x32]) = .ok (.number .number (.int 12)) := by
    with_unfolding_all rfl
  obtain ⟨g, hbroken⟩ : ∃ g, Document.readJson (.bytes [0x5b]) = .error g :=
    ⟨_, by with_unfolding_all rfl⟩
  have hs : s =
      { files := [("sample-schema.json", ⟨[0x7b, 0x7d], 6⟩), (name, ⟨[0x5b], 7⟩)]
        directory := "samples"
        cache := [x] } := by
    simp [← hrun, events, run, step, write, loadDocument, load, file, identity, path, Reader.documents,
      Cache.keep_eq_append, Members.put, Members.get?, Sample.documents, Sample.all,
      Dialect.readDocument, name, hformat, hfirst, hsecond, x]
  have hcache : s.cache = [x] := by rw [hs]
  have hfails : (s.step (.loadDocument name)).1.Fails := by
    simp [hs, step, loadDocument, load, file, identity, path, Reader.documents, Members.get?,
      Sample.documents, Sample.all, Dialect.readDocument, name, hformat, hbroken, x]
    trivial
  have hx : x ∈ s.cache := hcache ▸ List.mem_singleton_self x
  refine ⟨hcache, hparsed x hx, hfails, (hstep (.loadDocument name)).1 hfails, ?_⟩
  have hpath : x.1.path ≠ s.path "sample-schema.json" := by
    rw [hs]
    decide
  exact ((hstep (.loadSchema "sample-schema.json")).2 _ rfl x hpath).mpr hx

end Shelf

end Conform
