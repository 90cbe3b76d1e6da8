import Conform.Proofs.Schema.Nodes
import Conform.Proofs.Validator.Located
import Conform.Proofs.Validator.Words

/-!
No finding is made twice. Findings of one node differ in the words of their messages, and findings
of two nodes differ in their paths: those on two members, or on two items, lie beyond two steps. A
member that is missing or that is not declared has no finding of its own below it.
-/

namespace Conform

inductive Value.KeysDistinct : Value → Prop where
  | object {members : List (String × Value)} (nodup : (Members.keys members).Nodup)
      (each : ∀ m ∈ members, KeysDistinct m.2) : KeysDistinct (.object members)
  | array {items : List Value} (each : ∀ v ∈ items, KeysDistinct v) : KeysDistinct (.array items)
  | string (s : String) : KeysDistinct (.string s)
  | number (k : NumberKind) (n : Number) : KeysDistinct (.number k n)
  | boolean (b : Bool) : KeysDistinct (.boolean b)
  | null : KeysDistinct .null
  | temporal (k : TemporalKind) (s : String) : KeysDistinct (.temporal k s)

namespace Value

attribute [simp] KeysDistinct.string KeysDistinct.number KeysDistinct.boolean KeysDistinct.null
  KeysDistinct.temporal

@[simp] lemma keysDistinct_array {items : List Value} :
    KeysDistinct (.array items) ↔ ∀ v ∈ items, KeysDistinct v :=
  ⟨fun h => by cases h; assumption, .array⟩

@[simp] lemma keysDistinct_object {ms : List (String × Value)} :
    KeysDistinct (.object ms) ↔ (Members.keys ms).Nodup ∧ ∀ m ∈ ms, KeysDistinct m.2 :=
  ⟨fun h => by cases h; exact ⟨‹_›, ‹_›⟩, fun h => .object h.1 h.2⟩

end Value

namespace Validator

open Notice

variable {d : Dialect} {e : Setup} {v : Value} {s t : Schema} {p : Site} {fs gs : List Finding}
  {path : String}

/-- A schema of which nothing is told twice at a node. -/
structure Unrepeated (s : Schema) : Prop where
  malformed : s.malformed.Nodup
  required : s.required.Nodup

/-- Findings at a path, in words on what is inside a node, and behind them findings elsewhere. -/
def Arranged (path : String) (fs : List Finding) : Prop :=
  ∃ here elsewhere, fs = here ++ elsewhere ∧ Speaks path contentWords here ∧ Distinct elsewhere ∧
    ∀ f ∈ elsewhere, f.path ≠ path

lemma arranged_of_speaks {as : List String} (h : Speaks path as fs) (ha : as ⊆ contentWords) :
    Arranged path fs :=
  ⟨fs, [], (List.append_nil fs).symm, h.mono ha, List.Pairwise.nil, by simp⟩

lemma arranged_of_elsewhere (h : Distinct fs) (hp : ∀ f ∈ fs, f.path ≠ path) : Arranged path fs :=
  ⟨[], fs, rfl, Speaks.nil, h, hp⟩

/-- What is arranged differs from what is said at the path in other words. -/
lemma Arranged.differ {as : List String} (h : Arranged path fs) (hg : Speaks path as gs)
    (ha : AllParted contentWords as) : ∀ f ∈ fs, ∀ g ∈ gs, Differ f g := by
  obtain ⟨here, elsewhere, rfl, hh, -, he⟩ := h
  intro f hf g hmg
  rcases List.mem_append.mp hf with hf | hf
  · exact hh.differ hg ha f hf g hmg
  · intro hp
    exact absurd (hp.trans (hg.at_path g hmg)) (he f hf)

lemma Arranged.distinct (h : Arranged path fs) : Distinct fs := by
  obtain ⟨here, elsewhere, rfl, hh, hd, he⟩ := h
  refine distinct_append.mpr ⟨hh.distinct, hd, fun f hf g hg hp => ?_⟩
  exact absurd (hp.symm.trans (hh.at_path f hf)) (he g hg)

lemma distinct_entry (h : s.malformed.Nodup) : Distinct (entry e v s p).findings := by
  have hm : Speaks p.path malformedWords (malformedFindings s p.path) :=
    speaks_malformedFindings h
  unfold entry
  split
  · exact List.Pairwise.nil
  · split
    · exact List.pairwise_singleton _ _
    · split
      · exact List.pairwise_singleton _ _
      · split
        · exact hm.distinct
        · exact (hm.append speaks_typeFindings (by decide +kernel)).distinct

lemma distinct_around {inside : Unit → List Notice} (hm : s.malformed.Nodup)
    (h : Arranged p.path (findings (inside ()))) :
    Distinct (findings (around e v s p inside)) := by
  simp only [around, findings_append, findings_ofFindings]
  split
  · next hn =>
    rw [entry_findings_of_entered (enters_iff.mp hn), findings_append, findings_ofFindings]
    have hmal : Speaks p.path malformedWords (malformedFindings s p.path) :=
      speaks_malformedFindings hm
    have henum : Speaks p.path enumWords (enumFindings s p.path v) := speaks_enumFindings
    have hmid := h.differ hmal (by decide +kernel)
    refine distinct_append.mpr ⟨hmal.distinct, ?_, ?_⟩
    · exact distinct_append.mpr ⟨h.distinct, henum.distinct, h.differ henum (by decide +kernel)⟩
    · intro f hf g hg
      rcases List.mem_append.mp hg with hg | hg
      · exact (hmid g hg f hf).symm
      · exact hmal.differ henum (by decide +kernel) f hf g hg
  · rw [findings_nil, List.append_nil]
    exact distinct_entry hm

/-! ### Below a node -/

lemma differ_of_beyond {a b : Step} {f g : Finding} (hf : Beyond path a f) (hg : Beyond path b g)
    (h : a ≠ b) : Differ f g :=
  fun hp => absurd (hf.step_eq hg hp) h

lemma distinct_undeclaredFindings {key : String} : Distinct (undeclaredFindings s path key) := by
  unfold undeclaredFindings
  split
  · exact List.pairwise_singleton _ _
  · exact List.Pairwise.nil

lemma distinct_missingFindings {ms : List (String × Value)} (h : s.required.Nodup) :
    Distinct (missingFindings d s path ms) := by
  refine List.pairwise_map.mpr ((h.filter _).imp fun {k l} hkl => ?_)
  exact differ_of_beyond beyond_missingFinding beyond_missingFinding (by simpa using hkl)

lemma distinct_walkMembers {ms : List (String × Value)} (hn : (Members.keys ms).Nodup)
    (h : ∀ m ∈ ms, ∀ t, s.property? m.1 = some t →
      Distinct (findings (walk e m.2 t (p.member m.1)))) :
    Distinct (findings (walkMembers e ms s p)) := by
  induction ms with
  | nil => exact List.Pairwise.nil
  | cons m r ih =>
    obtain ⟨key, v⟩ := m
    obtain ⟨hkey, hr⟩ := List.nodup_cons.mp hn
    rw [walkMembers, findings_append]
    refine distinct_append.mpr ⟨?_, ih hr fun m hm => h m (List.mem_cons_of_mem _ hm), ?_⟩
    · split
      · next t ht => exact h (key, v) List.mem_cons_self t ht
      · rw [findings_ofFindings]
        exact distinct_undeclaredFindings
    · intro f hf g hg
      obtain ⟨key', hkey', hg⟩ := beyond_of_mem_walkMembers (mem_findings.mp hg)
      have hf : Beyond p.path (.key key) f := by
        rw [mem_findings] at hf
        split at hf
        · exact beyond_of_mem_walk_member hf
        · exact beyond_of_mem_undeclaredFindings (ok_mem_ofFindings.mp hf)
      refine differ_of_beyond hf hg ?_
      rintro ⟨⟩
      exact hkey hkey'

lemma distinct_walkItems {vs : List Value} {k : Nat}
    (h : ∀ v ∈ vs, ∀ q, Distinct (findings (walk e v t q))) :
    Distinct (findings (walkItems e vs t p k)) := by
  induction vs generalizing k with
  | nil => exact List.Pairwise.nil
  | cons v r ih =>
    rw [walkItems, findings_append]
    refine distinct_append.mpr ⟨h v List.mem_cons_self _,
      ih fun v hv => h v (List.mem_cons_of_mem _ hv), fun f hf g hg => ?_⟩
    obtain ⟨i, hi, hg⟩ := beyond_of_mem_walkItems (mem_findings.mp hg)
    refine differ_of_beyond (beyond_of_mem_walk_item (mem_findings.mp hf)) hg ?_
    rintro ⟨⟩
    omega

/-! ### The walk -/

lemma arranged_object {ms : List (String × Value)} (hs : s.required.Nodup)
    (hk : (Members.keys ms).Nodup)
    (h : ∀ m ∈ ms, ∀ t, s.property? m.1 = some t →
      Distinct (findings (walk e m.2 t (p.member m.1)))) :
    Arranged p.path (findings (ofFindings (missingFindings e.dialect s p.path ms) ++
      walkMembers e ms s p)) := by
  have hmissing : ∀ f ∈ missingFindings e.dialect s p.path ms,
      ∃ name ∉ Members.keys ms, Beyond p.path (.key name) f := by
    intro f hf
    obtain ⟨name, -, hname, rfl⟩ := mem_missingFindings.mp hf
    exact ⟨name, hname, beyond_missingFinding⟩
  rw [findings_append, findings_ofFindings]
  refine arranged_of_elsewhere (distinct_append.mpr
    ⟨distinct_missingFindings hs, distinct_walkMembers hk h, fun f hf g hg => ?_⟩) fun f hf => ?_
  · obtain ⟨name, hname, hf⟩ := hmissing f hf
    obtain ⟨key, hkey, hg⟩ := beyond_of_mem_walkMembers (mem_findings.mp hg)
    refine differ_of_beyond hf hg ?_
    rintro ⟨⟩
    exact hname hkey
  · rcases List.mem_append.mp hf with hf | hf
    · obtain ⟨name, -, hf⟩ := hmissing f hf
      exact hf.path_ne
    · obtain ⟨key, -, hf⟩ := beyond_of_mem_walkMembers (mem_findings.mp hf)
      exact hf.path_ne

lemma arranged_array {vs : List Value}
    (h : ∀ t, s.items = some t → ∀ v ∈ vs, ∀ q, Distinct (findings (walk e v t q))) :
    Arranged p.path (findings (ofFindings (sizeFindings s p.path vs.length) ++
      match s.items with
      | some t => walkItems e vs t p 0
      | none => [])) := by
  have hsize : Speaks p.path contentWords (sizeFindings s p.path vs.length) :=
    speaks_sizeFindings.mono (by simp [contentWords])
  rw [findings_append, findings_ofFindings]
  refine ⟨_, _, rfl, hsize, ?_⟩
  split
  · next t ht =>
    refine ⟨distinct_walkItems (h t ht), fun f hf => ?_⟩
    obtain ⟨i, -, hf⟩ := beyond_of_mem_walkItems (mem_findings.mp hf)
    exact hf.path_ne
  · exact ⟨List.Pairwise.nil, by simp⟩

lemma arranged_textNotices {text shown : String} :
    Arranged path (findings (textNotices s path text shown)) :=
  arranged_of_speaks speaks_textNotices (by simp [contentWords])

lemma arranged_numberNotices {n : Number} : Arranged path (findings (numberNotices s path n)) :=
  arranged_of_speaks speaks_numberNotices (by simp [contentWords])

lemma arranged_nil : Arranged path (findings []) :=
  arranged_of_speaks Speaks.nil (List.nil_subset _)

theorem distinct_walk (hv : v.KeysDistinct) (hs : s.Everywhere Unrepeated) :
    Distinct (findings (walk e v s p)) := by
  induction v using Value.induction generalizing s p with
  | object ms ih =>
    obtain ⟨hk, each⟩ := Value.keysDistinct_object.mp hv
    rw [walk]
    refine distinct_around hs.here.malformed (arranged_object hs.here.required hk ?_)
    exact fun m hm t ht => ih m hm (each m hm) (hs.property ht)
  | array vs ih =>
    have each := Value.keysDistinct_array.mp hv
    rw [walk]
    refine distinct_around hs.here.malformed (arranged_array ?_)
    exact fun t ht v hm q => ih v hm (each v hm) (hs.items ht)
  | string text =>
    rw [walk]
    exact distinct_around hs.here.malformed arranged_textNotices
  | temporal k text =>
    rw [walk]
    exact distinct_around hs.here.malformed arranged_textNotices
  | number k n =>
    rw [walk]
    exact distinct_around hs.here.malformed arranged_numberNotices
  | boolean b =>
    rw [walk]
    exact distinct_around hs.here.malformed arranged_nil
  | null =>
    rw [walk]
    exact distinct_around hs.here.malformed arranged_nil

/-- **No finding is made twice**: under a schema that is read, and in no node of which a required
name is repeated, the paths and messages of all findings differ. -/
theorem nodup_of_validate {j : Json} (hv : v.KeysDistinct) (hj : j.KeysDistinct)
    (hr : (Schema.ofJson j).Everywhere fun t => t.required.Nodup)
    (h : validate e v (Schema.ofJson j) path = .ok fs) :
    (fs.map fun f => (f.path, f.message)).Nodup := by
  have hs : (Schema.ofJson j).Everywhere Unrepeated :=
    fun t ht => ⟨Schema.malformed_nodup hj t ht, hr t ht⟩
  have hd : Distinct (findings (walk e v (Schema.ofJson j) (Site.ofRoot path))) :=
    distinct_walk hv hs
  rw [eq_ofFindings_of_gather h, findings_ofFindings] at hd
  refine List.pairwise_map.mpr (hd.imp fun {f g} hfg hp => ?_)
  obtain ⟨hpath, hmessage⟩ := Prod.mk.inj hp
  exact hfg hpath hmessage

/-- Six findings at three paths: a missing member, two malformed keywords beside a wrong type, and
an item that is too small and no multiple. -/
theorem nodup_of_six :
    let v : Value := .object [("name", .boolean true), ("sizes", .array [.number .number (.int 3)])]
    let name : Json := .object
      [("type", .string "string"), ("minLength", .string "two"), ("maxLength", .bool true)]
    let size : Json := .object [("minimum", .number (.int 4)), ("multipleOf", .number (.int 2))]
    let j : Json := .object
      [("required", .array [.string "name", .string "kind"]),
        ("properties", .object [("name", name), ("sizes", .object [("items", size)])])]
    let fs : List Finding :=
      [.missingProperty "$.kind" "kind", .other "$.name" "Malformed schema keyword 'minLength'",
        .other "$.name" "Malformed schema keyword 'maxLength'",
        .invalidType "$.name" "string" "boolean" false,
        .invalidValue "$.sizes[0]" "Number is less than required minimum 4" ">= 4" "3",
        .invalidValue "$.sizes[0]" "Number must be a multiple of 2" "multiple of 2" "3"]
    validate ⟨.json, 32⟩ v (Schema.ofJson j) "$" = .ok fs ∧
      (fs.map fun f => (f.path, f.message)).Nodup := by
  intro v name size j fs
  have hrun : validate ⟨.json, 32⟩ v (Schema.ofJson j) "$" = .ok fs := by decide +kernel
  have hv : v.KeysDistinct := by simp [v, Members.keys]
  have hj : j.KeysDistinct := by simp [j, name, size, Members.keys]
  have hr : (Schema.ofJson j).Everywhere fun t => t.required.Nodup := by
    have hname : (Schema.ofJson name).Everywhere fun t => t.required.Nodup :=
      .leaf List.nodup_nil rfl rfl
    have hsize : (Schema.ofJson size).Everywhere fun t => t.required.Nodup :=
      .leaf List.nodup_nil rfl rfl
    have hsizes : (Schema.ofJson (.object [("items", size)])).Everywhere
        fun t => t.required.Nodup :=
      .intro List.nodup_nil (List.forall_mem_nil _) (fun u hu => by cases hu; exact hsize)
    refine .intro (by decide +kernel) ?_ (fun u hu => by cases hu)
    exact List.forall_mem_cons.mpr ⟨hname, List.forall_mem_singleton.mpr hsizes⟩
  exact ⟨hrun, nodup_of_validate hv hj hr hrun⟩

end Validator

end Conform
