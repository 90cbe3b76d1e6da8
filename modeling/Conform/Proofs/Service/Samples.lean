import Conform.Proofs.Engine
import Conform.Proofs.Sample.Transparency
import Conform.Service.Basic

/-!
The validation of a sample is that of the bytes of its two files. The service loads a document and
its schema from a shelf that remembers, and turns what goes wrong on the way into replies of its
own; the engine reads both sources and validates. Whatever has been asked of the service before and
whatever has happened to the files, both come to the same, if time and size tell the files apart.
-/

namespace Conform

/-- Something that happens to a service: a request, or an event of its shelf. -/
inductive Happening where
  | request (r : Service.Request)
  | event (e : Event)

namespace Happening

def event? : Happening → Option Event
  | .event e => some e
  | .request _ => none

end Happening

namespace Service

variable [Toml.Decoder]

def step (s : Service) : Happening → Service
  | .request r => (s.answer r).2
  | .event e => { s with shelf := (s.shelf.step e).2 }

def run (s : Service) : List Happening → Service
  | [] => s
  | h :: r => run (s.step h) r

end Service

/-! ### What requests leave -/

namespace Shelf

variable [Toml.Decoder] {seen : String → File → Prop} {s t : Shelf} {e : Engine} {name : String}

/-- One shelf becomes another by loads alone. -/
inductive LoadsTo (s : Shelf) : Shelf → Prop where
  | refl : LoadsTo s s
  | document {t : Shelf} (name : String) (h : LoadsTo s t) : LoadsTo s (t.loadDocument name).2
  | schema {t : Shelf} (name : String) (h : LoadsTo s t) : LoadsTo s (t.loadSchema name).2

lemma LoadsTo.files (h : s.LoadsTo t) : t.files = s.files := by
  induction h with
  | refl => rfl
  | document name _ ih => exact (files_load _ _ name).trans ih
  | schema name _ ih => exact (files_load _ _ name).trans ih

lemma LoadsTo.sound (h : s.LoadsTo t) (hs : s.Sound seen) : t.Sound seen := by
  induction h with
  | refl => exact hs
  | document name _ ih => exact ih.load Reader.parses_documents
  | schema name _ ih => exact ih.load Reader.parses_schemas

lemma loadsTo_validate (s : Shelf) (e : Engine) (name : String) :
    s.LoadsTo (s.validate e name).2 := by
  have hdocument : s.LoadsTo (s.loadDocument name).2 := .document name .refl
  unfold validate
  split
  · next hl => rwa [hl] at hdocument
  · next hl =>
    rw [hl] at hdocument
    split
    · exact hdocument
    · next sample _ =>
      have hschema := hdocument.schema sample.schema
      split <;> next hl' => rwa [hl'] at hschema

lemma LoadsTo.loadSchemas {names : List String} (h : s.LoadsTo t) :
    s.LoadsTo (t.loadSchemas names).2 := by
  induction names generalizing t with
  | nil => exact h
  | cons name r ih =>
    have hnext := h.schema name
    rw [Shelf.loadSchemas]
    split
    · next hl =>
      rw [hl] at hnext
      exact ih hnext
    · next hl => rwa [hl] at hnext

end Shelf

namespace Service

variable [Toml.Decoder] {seen : String → File → Prop} {s : Service}

lemma loadsTo_health (shelf : Shelf) : shelf.LoadsTo (health shelf).2 := by
  have hnext : shelf.LoadsTo (shelf.loadSchemas Sample.schemas).2 := Shelf.LoadsTo.refl.loadSchemas
  unfold health
  split <;> next hl => rwa [hl] at hnext

lemma loadsTo_sampleValidation (s : Service) (name : String) :
    s.shelf.LoadsTo (s.sampleValidation name).2 := by
  unfold sampleValidation
  split
  · exact .refl
  · exact s.shelf.loadsTo_validate _ name

lemma settings_answer (s : Service) (r : Request) : (s.answer r).2.settings = s.settings := by
  unfold answer
  split
  · rfl
  · split <;> rfl

/-- A request does nothing to the shelf but to load from it. -/
lemma loadsTo_answer (s : Service) (r : Request) : s.shelf.LoadsTo (s.answer r).2.shelf := by
  unfold answer
  split
  · exact .refl
  · next resource _ =>
    split
    · cases resource with
      | about | validation | samples | sample => exact .refl
      | health => exact loadsTo_health s.shelf
      | sampleValidation name => exact loadsTo_sampleValidation s name
    · exact .refl

lemma settings_run {happenings : List Happening} : (s.run happenings).settings = s.settings := by
  induction happenings generalizing s with
  | nil => rfl
  | cons x r ih =>
    refine ih.trans ?_
    cases x with
    | request r => exact settings_answer s r
    | event e => rfl

lemma sound_run {happenings : List Happening} (h : s.shelf.Sound seen)
    (hw : ∀ name f, .event (.write name f) ∈ happenings → seen name f) :
    (s.run happenings).shelf.Sound seen := by
  induction happenings generalizing s with
  | nil => exact h
  | cons x r ih =>
    have hnext : (s.step x).shelf.Sound seen := by
      cases x with
      | request r => exact (loadsTo_answer s r).sound h
      | event e => exact h.step fun name f he => hw name f (he ▸ List.mem_cons_self)
    exact ih hnext fun name f hm => hw name f (List.mem_cons_of_mem _ hm)

end Service

/-! ### One validation -/

namespace Sample

lemma find?_name {sample : Sample} (h : sample ∈ all) : find? sample.name = some sample := by
  simp only [all, List.mem_cons, List.not_mem_nil, or_false] at h
  rcases h with rfl | rfl | rfl | rfl <;> decide

end Sample

namespace Shelf

lemma result_of_map_error {α : Type} {x : Except LoadFailure (Loaded α)} {g : LoadFailure}
    (h : x.map Loaded.content = .error g) : x = .error g := by
  cases x with
  | error g' =>
    cases h
    rfl
  | ok a => cases h

lemma result_of_map_ok {α : Type} {x : Except LoadFailure (Loaded α)} {a : α}
    (h : x.map Loaded.content = .ok a) : ∃ b, x = .ok ⟨a, b⟩ := by
  cases x with
  | error g => cases h
  | ok l =>
    cases h
    exact ⟨l.remembered, rfl⟩

section

variable [Toml.Decoder] {seen : String → File → Prop} {s : Shelf} {sample : Sample} {d c : File}

lemma Sound.content_loadDocument (h : s.Sound seen) (hv : VersionsTell seen)
    (hs : sample ∈ Sample.all) (hd : Members.get? s.files sample.name = some d) :
    (s.loadDocument sample.name).1.map Loaded.content =
      (sample.dialect.readDocument (.bytes d.bytes)).mapError .failed := by
  have hname : sample.name ∈ Reader.documents.names := List.mem_map_of_mem hs
  rw [loadDocument, h.content_load Reader.parses_documents hv, Files.load, if_pos hname, hd]
  rfl

lemma Sound.content_loadSchema (h : s.Sound seen) (hv : VersionsTell seen)
    (hs : sample ∈ Sample.all) (hc : Members.get? s.files sample.schema = some c) :
    (s.loadSchema sample.schema).1.map Loaded.content =
      (Schema.read (.bytes c.bytes)).mapError .failed := by
  have hname : sample.schema ∈ Reader.schemas.names := Sample.schema_mem_schemas hs
  rw [loadSchema, h.content_load Reader.parses_schemas hv, Files.load, if_pos hname, hc]
  rfl

/-- What the engine comes to, as what comes of loading: what is not read is a failure. -/
def direct (e : Engine) (sample : Sample) (d c : File) : Except LoadFailure Outcome :=
  match Engine.read sample.dialect (.bytes d.bytes) (.bytes c.bytes) with
  | .error g => .error (.failed g)
  | .ok (v, t) => (e.validateParsed sample.dialect v t).mapError fun i => .failed (.interrupted i)

lemma Sound.validate_eq {e : Engine} (h : s.Sound seen) (hv : VersionsTell seen)
    (hs : sample ∈ Sample.all) (hd : Members.get? s.files sample.name = some d)
    (hc : Members.get? s.files sample.schema = some c) :
    (s.validate e sample.name).1 = direct e sample d c := by
  have hdocument := h.content_loadDocument hv hs hd
  have hnext : (s.loadDocument sample.name).2.Sound seen :=
    h.load Reader.parses_documents
  have hfiles : (s.loadDocument sample.name).2.files = s.files := (LoadsTo.refl.document _).files
  rw [Shelf.validate, direct]
  obtain ⟨x, s', hload⟩ : ∃ x s', s.loadDocument sample.name = (x, s') := ⟨_, _, rfl⟩
  simp only [hload] at hdocument hnext hfiles ⊢
  cases hread : sample.dialect.readDocument (.bytes d.bytes) with
  | error g =>
    rw [hread] at hdocument
    rw [result_of_map_error hdocument, Engine.read_error_iff.mpr (Or.inl hread)]
  | ok v =>
    rw [hread] at hdocument
    obtain ⟨b, rfl⟩ := result_of_map_ok hdocument
    have hschema := hnext.content_loadSchema hv hs (hfiles ▸ hc)
    simp only [Sample.find?_name hs]
    obtain ⟨y, s'', hload'⟩ : ∃ y s'', s'.loadSchema sample.schema = (y, s'') := ⟨_, _, rfl⟩
    simp only [hload'] at hschema ⊢
    cases hread' : Schema.read (.bytes c.bytes) with
    | error g =>
      rw [hread'] at hschema
      rw [result_of_map_error hschema, Engine.read_error_iff.mpr (Or.inr ⟨v, hread, hread'⟩)]
    | ok t =>
      rw [hread'] at hschema
      obtain ⟨b', rfl⟩ := result_of_map_ok hschema
      rw [Engine.read_ok_iff.mpr ⟨hread, hread'⟩]

end

end Shelf

namespace Service

variable {s : Service} {sample : Sample} {d c : File}

def Reply.ofValidation : Except Interruption Outcome → Reply
  | .ok o => .outcome o
  | .error i => .ofInterruption i

def Request.validating (sample : Sample) : Request :=
  { method := "POST", path := "/api/v1/samples/" ++ sample.name ++ "/validate" }

lemma resource?_validating (hs : sample ∈ Sample.all) :
    (Request.validating sample).resource? = some (.sampleValidation sample.name) ∧
      (Request.validating sample).method.toUpper = "POST" := by
  simp only [Sample.all, List.mem_cons, List.not_mem_nil, or_false] at hs
  rcases hs with rfl | rfl | rfl | rfl <;> decide +kernel

section

variable [Toml.Decoder]

lemma answer_sampleValidation {r : Request} (hs : sample ∈ Sample.all)
    (hr : r.resource? = some (.sampleValidation sample.name)) (hm : r.method.toUpper = "POST") :
    (s.answer r).1 =
      sampleReply sample (s.shelf.validate (.ofSettings s.settings) sample.name).1 := by
  simp only [answer, hr, Resource.method, hm, if_true, reply, sampleValidation,
    Sample.find?_name hs]

lemma sampleReply_direct (e : Engine) :
    sampleReply sample (Shelf.direct e sample d c) =
      .ofValidation (e.validate sample.dialect (.bytes d.bytes) (.bytes c.bytes)) := by
  unfold Shelf.direct Engine.validate
  cases Engine.read sample.dialect (.bytes d.bytes) (.bytes c.bytes) with
  | error g => cases g <;> rfl
  | ok x =>
    simp only
    cases e.validateParsed sample.dialect x.1 x.2 <;> rfl

lemma direct_eq_interrupted_iff {e : Engine} {i : Interruption} :
    Shelf.direct e sample d c = .error (.failed (.interrupted i)) ↔
      e.validate sample.dialect (.bytes d.bytes) (.bytes c.bytes) = .error i := by
  unfold Shelf.direct Engine.validate
  cases Engine.read sample.dialect (.bytes d.bytes) (.bytes c.bytes) with
  | error g => cases g <;> simp
  | ok x =>
    simp only
    cases e.validateParsed sample.dialect x.1 x.2 with
    | ok o => exact ⟨nofun, nofun⟩
    | error j =>
      constructor
      · rintro ⟨⟩
        rfl
      · rintro ⟨⟩
        rfl

/-- **Samples are validated as sources**: after every run of a service whose shelf remembers nothing
at first, and of its files, the reply to the validation of a sample tells what validating the bytes
of its two files comes to, and where nothing comes of one for a reason, nothing comes of the other
for the same, if time and size tell the files apart that the run has under one name. A document that
cannot be read is told of whatever the schema is, and else a schema that cannot be read. -/
theorem sampleValidation_agrees {settings : Settings} {files : Members File} {directory : String}
    {happenings : List Happening}
    (h : VersionsTell (Seen files (happenings.filterMap Happening.event?)))
    (hs : sample ∈ Sample.all) {r : Request}
    (hr : r.resource? = some (.sampleValidation sample.name)) (hm : r.method.toUpper = "POST") :
    let s := run ⟨settings, { files, directory }⟩ happenings
    let e := Engine.ofSettings settings
    Members.get? s.shelf.files sample.name = some d →
    Members.get? s.shelf.files sample.schema = some c →
    let document := Source.bytes d.bytes
    let schema := Source.bytes c.bytes
    (s.answer r).1 = .ofValidation (e.validate sample.dialect document schema) ∧
    (∀ i, (s.shelf.validate e sample.name).1 = .error (.failed (.interrupted i)) ↔
      e.validate sample.dialect document schema = .error i) ∧
    (∀ role u, sample.dialect.readDocument document = .error (.unreadable role u) →
      (s.answer r).1 = .outcome (.parseFailure sample.dialect (u.message role))) ∧
    ∀ v role u, sample.dialect.readDocument document = .ok v →
      Schema.read schema = .error (.unreadable role u) →
      (s.answer r).1 = .outcome (.parseFailure sample.dialect (u.message role)) := by
  intro s e hd hc document schema
  have hsound : s.shelf.Sound (Seen files (happenings.filterMap Happening.event?)) := by
    refine sound_run (Shelf.sound_empty files directory fun _ _ => Or.inl) fun name f hw => ?_
    exact Or.inr (List.mem_filterMap.mpr ⟨_, hw, rfl⟩)
  have hvalidate := hsound.validate_eq (e := e) h hs hd hc
  have hsettings : s.settings = settings := settings_run
  have hreply : (s.answer r).1 = .ofValidation (e.validate sample.dialect document schema) := by
    rw [answer_sampleValidation hs hr hm, hsettings, hvalidate, sampleReply_direct]
  have hunread : ∀ role u, Engine.read sample.dialect document schema =
      .error (.unreadable role u) →
      (s.answer r).1 = .outcome (.parseFailure sample.dialect (u.message role)) := by
    intro role u hread
    rw [hreply, Engine.validate, hread]
    rfl
  refine ⟨hreply, fun i => ?_, fun role u hu => ?_, fun v role u hv hu => ?_⟩
  · rw [hvalidate]
    exact direct_eq_interrupted_iff
  · exact hunread role u (Engine.read_error_iff.mpr (Or.inl hu))
  · exact hunread role u (Engine.read_error_iff.mpr (Or.inr ⟨v, hv, hu⟩))

end

/-- A sample that was valid, and whose files are then both broken: the reply tells of the document,
whatever is remembered. -/
theorem sampleValidation_agrees_broken :
    let sample : Sample := ⟨"valid-person.json", "sample-schema.json"⟩
    let r := Request.validating sample
    let happenings : List Happening :=
      [.event (.write sample.schema ⟨[0x7b, 0x7d], 6⟩), .event (.write sample.name ⟨[0x31], 5⟩),
        .request r, .event (.write sample.schema ⟨[0x5b], 6⟩),
        .event (.write sample.name ⟨[0x5b], 7⟩)]
    let s := run ⟨{}, {}⟩ happenings
    VersionsTell (Seen [] (happenings.filterMap Happening.event?)) ∧
      Members.get? s.shelf.files sample.name = some ⟨[0x5b], 7⟩ ∧
      Members.get? s.shelf.files sample.schema = some ⟨[0x5b], 6⟩ ∧
      (s.answer r).1 = .outcome
        (.parseFailure .json "Document parsing error: Expecting value: line 1 column 2 (char 1)") := by
  have hformat : Sample.dialectOf "valid-person.json" = .json := by decide
  obtain ⟨u, hu, hmessage⟩ : ∃ u,
      Document.readJson (.bytes [0x5b]) = .error (.unreadable .document u) ∧
        u.message .document = "Document parsing error: Expecting value: line 1 column 2 (char 1)" :=
    ⟨_, by with_unfolding_all rfl, rfl⟩
  intro sample r happenings s
  have htell : VersionsTell (Seen [] (happenings.filterMap Happening.event?)) := by
    intro name f g hf hg htime hsize
    simp only [Seen, Members.get?_nil, happenings, List.filterMap, Happening.event?, List.mem_cons,
      Event.write.injEq, reduceCtorEq, List.not_mem_nil, false_or, or_false] at hf hg
    grind
  have hfiles : s.shelf.files =
      [(sample.schema, ⟨[0x5b], 6⟩), (sample.name, ⟨[0x5b], 7⟩)] := by
    simp [s, happenings, run, step, Shelf.step, Shelf.write, (loadsTo_answer _ r).files,
      Members.put, sample]
  have hd : Members.get? s.shelf.files sample.name = some ⟨[0x5b], 7⟩ := by
    rw [hfiles]
    rfl
  have hc : Members.get? s.shelf.files sample.schema = some ⟨[0x5b], 6⟩ := by
    rw [hfiles]
    rfl
  have hs : sample ∈ Sample.all := List.mem_cons_self
  obtain ⟨hresource, hmethod⟩ := resource?_validating hs
  obtain ⟨-, -, hunread, -⟩ := sampleValidation_agrees htell hs hresource hmethod hd hc
  refine ⟨htell, hd, hc, ?_⟩
  rw [hunread .document u (by rwa [Sample.dialect, hformat]), hmessage, Sample.dialect, hformat]

end Service

end Conform
