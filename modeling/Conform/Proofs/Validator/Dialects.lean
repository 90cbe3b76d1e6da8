import Conform.Proofs.Native
import Conform.Proofs.Validator.FailSoft
import Conform.Proofs.Validator.Paired
import Conform.Proofs.Validator.Simulation

/-!
The two dialects agree. One tree is read as JSON and as TOML, and both documents are validated under
one schema. The walks go side by side: a relation between the notices of both that every node keeps
holds of the whole walks. Under schemas that name no dates or times, and neither integers nor
floats, the notices are alike one by one. Where integers and floats are named, JSON asks for less
than TOML.
-/

namespace Conform

open TypeRule

variable {n : Native} {r : TypeRule} {type : String}

lemma name_of_rule? {d : Dialect} (h : d.rule? type = some r) : r.name = type := by
  have hname := List.find?_some h
  exact eq_of_beq hname

lemma common_of_rule? (h : Dialect.json.rule? type = some r) : r ∈ common :=
  List.mem_of_find?_eq_some h

/-- A name that is none of a date's or time's names the same rule in both dialects. -/
lemma rule?_toml (h : ∀ r ∈ temporals, type ≠ r.name) :
    Dialect.toml.rule? type = Dialect.json.rule? type := by
  have htemporal : temporals.find? (fun r => r.name == type) = none := by
    rw [List.find?_eq_none]
    intro r hr
    simpa using (h r hr).symm
  simp only [Dialect.rule?, Dialect.rules, List.find?_append, htemporal, Option.or_none]

/-- Rules that are not about integers or floats take the same trees in both dialects. -/
lemma accepts_json (hr : r ∈ common) (hi : r ≠ .integer) (hf : r ≠ .float) (n : Native) :
    r.accepts .json n.asJson = r.accepts .toml n.asToml := by
  cases r with
  | integer => exact absurd rfl hi
  | float => exact absurd rfl hf
  | temporal k => simp [common] at hr
  | object | table | array | string | number | boolean | null | any =>
    cases n <;> simp [accepts, Value.kind, Dialect.isNumber]

/-- What a rule takes in TOML, it takes in JSON. -/
lemma accepts_json_of_toml (hr : r ∈ common) (h : r.accepts .toml n.asToml = true) :
    r.accepts .json n.asJson = true := by
  by_cases hi : r = .integer
  · subst hi
    cases n <;> simp_all [accepts, Dialect.isInteger, Number.isWhole]
  · by_cases hf : r = .float
    · subst hf
      cases n <;> simp_all [accepts, Dialect.isFloat]
    · rw [accepts_json hr hi hf, h]

/-- A finding of JSON and one of TOML say the same: they agree in all but what was found, or one
member is missing and TOML tells of it as a table. -/
inductive Finding.Alike : Finding → Finding → Prop where
  | same {f g : Finding} (kind : f.kind = g.kind) (path : f.path = g.path)
      (message : f.message = g.message) (expected : f.expected = g.expected) : Alike f g
  | missing (place name : String) : Alike (.missingProperty place name) (.tableNotFound place name)

lemma Finding.Alike.refl (f : Finding) : Alike f f := .same rfl rfl rfl rfl

namespace Validator

open Notice

variable {m : Int} {s t : Schema} {p : Site} {path : String} {P : Schema → Prop}
  {R : List Notice → List Notice → Prop}

/-! ### Walking side by side -/

/-- A relation between the notices on a tree as JSON and as TOML that every node keeps: it holds of
notices that are alike, it holds of lists one behind the other, and around a node whose schema has a
property it holds if it holds inside. -/
structure Kept (m : Int) (P : Schema → Prop) (R : List Notice → List Notice → Prop) : Prop where
  alike : ∀ {ns ms}, List.Forall₂ (Paired Finding.Alike) ns ms → R ns ms
  append : ∀ {ns ms ns' ms'}, R ns ms → R ns' ms' → R (ns ++ ns') (ms ++ ms')
  around : ∀ (n : Native) {s : Schema} {p : Site} {inside inside' : Unit → List Notice}, P s →
    R (inside ()) (inside' ()) →
    R (around ⟨.json, m⟩ n.asJson s p inside) (around ⟨.toml, m⟩ n.asToml s p inside')

lemma alike_missingFinding {name : String} :
    Finding.Alike (missingFinding .json s path name) (missingFinding .toml s path name) := by
  have hjson : ¬MissesTable .json s name := fun h => by cases h.1
  rw [missingFinding_of_not_missesTable hjson]
  by_cases htoml : MissesTable .toml s name
  · rw [missingFinding_of_missesTable htoml]
    exact .missing _ _
  · rw [missingFinding_of_not_missesTable htoml]
    exact .refl _

lemma alike_missingFindings {ms : List (String × Native)} :
    List.Forall₂ Finding.Alike
      (missingFindings .json s path (ms.map fun m => (m.1, m.2.asJson)))
      (missingFindings .toml s path (ms.map fun m => (m.1, m.2.asToml))) := by
  simp only [missingFindings, Members.get?_map, Option.isNone_map, List.forall₂_map_left_iff,
    List.forall₂_map_right_iff]
  exact List.forall₂_same.mpr fun name _ => alike_missingFinding

lemma enumFindings_asJson (n : Native) :
    enumFindings s path n.asJson = enumFindings s path n.asToml := by
  simp only [enumFindings, n.equals_asJson, n.display_asJson]

namespace Kept

lemma refl (h : Kept m P R) (ns : List Notice) : R ns ns := h.alike (paired_same .refl ns)

lemma content (h : Kept m P R) (n : Native) :
    R (contentNotices .json s path n.asJson) (contentNotices .toml s path n.asToml) := by
  cases n with
  | dict ms =>
    rw [Native.asJson_dict, Native.asToml_dict]
    exact h.alike (paired_ofFindings alike_missingFindings)
  | list ns =>
    rw [Native.asJson_list, Native.asToml_list]
    simp only [contentNotices, List.length_map]
    exact h.refl _
  | bool | int | float | string => exact h.refl _

lemma simulation (h : Kept m P R) : Simulation ⟨.json, m⟩ ⟨.toml, m⟩
    (fun v s w t => (∃ n : Native, v = n.asJson ∧ w = n.asToml) ∧ s = t ∧ s.Everywhere P) R where
  nil := h.refl []
  append := h.append
  around := by
    rintro _ s _ _ p inside inside' ⟨⟨n, rfl, rfl⟩, rfl, hs⟩ hin
    exact h.around n hs.here hin
  content := by
    rintro _ s _ _ path ⟨⟨n, rfl, rfl⟩, rfl, -⟩
    exact h.content n
  children := by
    rintro _ s _ _ ⟨⟨n, rfl, rfl⟩, rfl, hs⟩
    exact n.children_asJson.imp fun c c' hc =>
      .of_same hc.1 h.refl fun u hu => ⟨hc.2, rfl, hs.under hu⟩

theorem walk (h : Kept m P R) (n : Native) (hs : s.Everywhere P) :
    R (walk ⟨.json, m⟩ n.asJson s p) (walk ⟨.toml, m⟩ n.asToml s p) :=
  h.simulation.walk ⟨⟨n, rfl, rfl⟩, rfl, hs⟩

end Kept

/-! ### Notices alike one by one -/

def Timeless (s : Schema) : Prop := ∀ r ∈ temporals, s.type ≠ some r.name

instance : DecidablePred Timeless := fun s =>
  inferInstanceAs (Decidable (∀ r ∈ temporals, s.type ≠ some r.name))

/-- A schema that leaves numbers undivided: it names neither integers nor floats. -/
def Undivided (s : Schema) : Prop := s.type ≠ some integer.name ∧ s.type ≠ some float.name

instance : DecidablePred Undivided := fun _ => inferInstanceAs (Decidable (_ ∧ _))

lemma hasForm_common {v : Value} (hr : r ∈ common) : HasForm r v := by
  rintro k text rfl
  simp [common] at hr

lemma formFindings_common {v : Value} (hr : r ∈ common) : formFindings r path v = [] :=
  formFindings_eq_nil_iff.mpr (hasForm_common hr)

lemma alike_invalidType {expected found found' : String} {inArray : Bool} :
    Finding.Alike (.invalidType path expected found inArray)
      (.invalidType path expected found' inArray) := by
  cases inArray <;> exact .same rfl rfl rfl rfl

lemma alike_typeFindings (ht : ∀ r ∈ temporals, type ≠ r.name) (hi : type ≠ integer.name)
    (hf : type ≠ float.name) (n : Native) :
    List.Forall₂ Finding.Alike (typeFindings .json type p n.asJson)
      (typeFindings .toml type p n.asToml) := by
  unfold typeFindings
  rw [rule?_toml ht]
  split
  · exact .cons (.refl _) .nil
  · next r hr =>
    have hc : r ∈ common := common_of_rule? hr
    have hname : r.name = type := name_of_rule? hr
    have hri : r ≠ .integer := fun h => hi (by rw [← hname, h])
    have hrf : r ≠ .float := fun h => hf (by rw [← hname, h])
    rw [accepts_json hc hri hrf n, formFindings_common hc, formFindings_common hc]
    split
    · exact .nil
    · exact .cons alike_invalidType .nil

/-- Before the node is entered, both dialects say the same, and both enter it or neither does. -/
lemma alike_entry (ht : Timeless s) (hu : Undivided s) (n : Native) :
    List.Forall₂ Finding.Alike (entry ⟨.json, m⟩ n.asJson s p).findings
        (entry ⟨.toml, m⟩ n.asToml s p).findings ∧
      (entry ⟨.json, m⟩ n.asJson s p).enters = (entry ⟨.toml, m⟩ n.asToml s p).enters := by
  have hjson : n.asJson.kind ≠ .null := fun h => n.asJson_ne_null (Value.kind_eq_null_iff.mp h)
  have htoml : n.asToml.kind ≠ .null := fun h => n.asToml_ne_null (Value.kind_eq_null_iff.mp h)
  have hmal : List.Forall₂ Finding.Alike (malformedFindings s p.path)
      (malformedFindings s p.path) :=
    List.forall₂_same.mpr fun f _ => .refl f
  simp only [entry, if_neg hjson, if_neg htoml]
  split
  · exact ⟨.cons (.refl _) .nil, rfl⟩
  · split
    · exact ⟨.cons (.refl _) .nil, rfl⟩
    · split
      · exact ⟨hmal, rfl⟩
      · next type hs =>
        have htype : List.Forall₂ Finding.Alike (typeFindings .json type p n.asJson)
            (typeFindings .toml type p n.asToml) :=
          alike_typeFindings (fun r hr h => ht r hr (by rw [hs, h])) (fun h => hu.1 (by rw [hs, h]))
            (fun h => hu.2 (by rw [hs, h])) n
        exact ⟨List.rel_append hmal htype, isEmpty_of_forall₂ htype⟩

/-- Where neither integers nor floats are named, every node keeps the notices alike. -/
lemma kept_alike :
    Kept m (fun s => Timeless s ∧ Undivided s) (List.Forall₂ (Paired Finding.Alike)) where
  alike h := h
  append h h' := List.rel_append h h'
  around n s p inside inside' hs hin := by
    obtain ⟨hfindings, henters⟩ := alike_entry (m := m) (p := p) hs.1 hs.2 n
    simp only [Validator.around, henters, enumFindings_asJson]
    refine List.rel_append (paired_ofFindings hfindings) ?_
    split
    · exact List.rel_append hin (paired_same .refl _)
    · exact .nil

/-! ### Nothing to say -/

/-- A value that is there and of which nothing is said beforehand is entered. -/
lemma entered_of_findings_eq_nil {e : Setup} {v : Value} (hv : v ≠ .null)
    (h : (entry e v s p).findings = []) : Entered e v s p := by
  have hkind : v.kind ≠ .null := fun hk => hv (Value.kind_eq_null_iff.mp hk)
  rw [← enters_iff]
  unfold entry at h ⊢
  rw [if_neg hkind] at h ⊢
  split at h
  · cases h
  · split at h
    · cases h
    · next hdepth =>
      rw [if_neg hdepth]
      split at h
      · rfl
      · exact List.isEmpty_iff.mpr (List.append_eq_nil_iff.mp h).2

lemma entered_json_of_toml (ht : Timeless s) (h : Entered ⟨.toml, m⟩ n.asToml s p) :
    Entered ⟨.json, m⟩ n.asJson s p where
  present := n.asJson_ne_null
  isSchema := h.isSchema
  inReach := h.inReach
  hasType type hs := by
    obtain ⟨r, hr, ha, -⟩ := h.hasType type hs
    have hr : Dialect.json.rule? type = some r := by
      rw [← hr]
      exact (rule?_toml fun r hr h => ht r hr (by rw [hs, h])).symm
    have hc : r ∈ common := common_of_rule? hr
    exact ⟨r, hr, accepts_json_of_toml hc ha, hasForm_common hc⟩

/-- Where no dates and times are named, every node keeps it that JSON says nothing where TOML does
not. -/
lemma kept_nil : Kept m Timeless fun ns ms => ms = [] → ns = [] where
  alike h hms := by
    subst hms
    cases h
    rfl
  append h h' hms := by
    obtain ⟨hm, hm'⟩ := List.append_eq_nil_iff.mp hms
    rw [h hm, h' hm', List.append_nil]
  around n s p inside inside' ht hin h := by
    simp only [Validator.around, List.append_eq_nil_iff, ofFindings, List.map_eq_nil_iff] at h ⊢
    obtain ⟨hfindings, hrest⟩ := h
    have htoml : Entered ⟨.toml, m⟩ n.asToml s p :=
      entered_of_findings_eq_nil n.asToml_ne_null hfindings
    have hjson : Entered ⟨.json, m⟩ n.asJson s p := entered_json_of_toml ht htoml
    rw [entry_findings_of_entered htoml] at hfindings
    rw [if_pos (enters_iff.mpr htoml), List.append_eq_nil_iff, List.map_eq_nil_iff] at hrest
    rw [entry_findings_of_entered hjson, if_pos (enters_iff.mpr hjson), enumFindings_asJson]
    exact ⟨hfindings, by rw [hin hrest.1, hrest.2]; rfl⟩

/-! ### The validations -/

/-- **The dialects agree**: let a schema name no dates and times, and let one tree be read as JSON
and as TOML. If no integers and floats are named, both validations have findings that are alike,
exactly if no checked pair breaks off, and both end with the same interruption otherwise. If they
are named, what passes as TOML passes as JSON. -/
theorem dialects_agree (n : Native) (s : Schema) (m : Int) (path : String)
    (ht : s.Everywhere Timeless) :
    (s.Everywhere Undivided →
      ((∃ fs gs, validate ⟨.json, m⟩ n.asJson s path = .ok fs ∧
          validate ⟨.toml, m⟩ n.asToml s path = .ok gs ∧ List.Forall₂ Finding.Alike fs gs) ↔
        Lasts ⟨.json, m⟩ n.asJson s (Site.ofRoot path)) ∧
      ∀ i, validate ⟨.json, m⟩ n.asJson s path = .error i ↔
        validate ⟨.toml, m⟩ n.asToml s path = .error i) ∧
    (validate ⟨.toml, m⟩ n.asToml s path = .ok [] →
      validate ⟨.json, m⟩ n.asJson s path = .ok []) := by
  constructor
  · intro hu
    exact validate_paired (kept_alike.walk (m := m) n fun t h => ⟨ht t h, hu t h⟩)
  · intro h
    have hnil : walk ⟨.toml, m⟩ n.asToml s (Site.ofRoot path) = [] := eq_ofFindings_of_gather h
    rw [validate, kept_nil.walk n ht hnil]
    rfl

/-- A table that is missing, a number that is too small and an item of the wrong type, told by both;
and an integer, which passes in both. -/
theorem dialects_agree_missingTable :
    let n : Native := .dict [("a", .int 1), ("b", .list [.bool true])]
    let s : Schema :=
      { required := ["t"]
        properties := [("t", { type := some "table" }),
          ("a", { type := some "number", minimum := some (.int 2) }),
          ("b", { items := some { type := some "string" } })] }
    let s' : Schema := { properties := [("a", { type := some "integer" })] }
    let fs : List Finding :=
      [.missingProperty "$.t" "t",
        .invalidValue "$.a" "Number is less than required minimum 2" ">= 2" "1",
        .invalidType "$.b[0]" "string" "boolean" true]
    let gs : List Finding :=
      [.tableNotFound "$.t" "t",
        .invalidValue "$.a" "Number is less than required minimum 2" ">= 2" "1",
        .invalidType "$.b[0]" "string" "boolean" true]
    (validate ⟨.json, 32⟩ n.asJson s "$" = .ok fs ∧ validate ⟨.toml, 32⟩ n.asToml s "$" = .ok gs ∧
      List.Forall₂ Finding.Alike fs gs) ∧
    validate ⟨.toml, 32⟩ n.asToml s' "$" = .ok [] ∧
      validate ⟨.json, 32⟩ n.asJson s' "$" = .ok [] := by
  intro n s s' fs gs
  have hjson : validate ⟨.json, 32⟩ n.asJson s "$" = .ok fs := by decide +kernel
  have htoml : validate ⟨.toml, 32⟩ n.asToml s "$" = .ok gs := by decide +kernel
  have hpasses : validate ⟨.toml, 32⟩ n.asToml s' "$" = .ok [] := by decide +kernel
  have hs : s.Everywhere fun t => Timeless t ∧ Undivided t := by
    have hb : Schema.Everywhere (fun t => Timeless t ∧ Undivided t)
        { items := some { type := some "string" } } :=
      .intro (by decide) (List.forall_mem_nil _) fun u hu => by
        cases hu
        exact .leaf (by decide) rfl rfl
    refine .intro (by decide) ?_ fun u hu => by cases hu
    exact List.forall_mem_cons.mpr ⟨.leaf (by decide) rfl rfl,
      List.forall_mem_cons.mpr ⟨.leaf (by decide) rfl rfl, List.forall_mem_singleton.mpr hb⟩⟩
  have hs' : s'.Everywhere Timeless :=
    .intro (by decide) (List.forall_mem_singleton.mpr (.leaf (by decide) rfl rfl))
      fun u hu => by cases hu
  refine ⟨?_, hpasses, (dialects_agree n s' 32 "$" hs').2 hpasses⟩
  obtain ⟨fs', gs', hf, hg, h⟩ := ((dialects_agree n s 32 "$" fun t ht => (hs t ht).1).1
    fun t ht => (hs t ht).2).1.mpr (exists_validate_iff.mp ⟨fs, hjson⟩)
  rw [hjson] at hf
  rw [htoml] at hg
  cases hf
  cases hg
  exact ⟨hjson, htoml, h⟩

/-- A count that no repetition may have leaves both validations without findings. -/
theorem hugeCount_hides_both :
    let n : Native := .dict [("a", .string "x"), ("b", .int 1)]
    let s : Schema :=
      { properties := [("a", { pattern := some "a\x7b4294967295\x7d" }),
          ("b", { type := some "string" })] }
    s.Everywhere Timeless ∧ s.Everywhere Undivided ∧
      ¬∃ fs gs, validate ⟨.json, 32⟩ n.asJson s "$" = .ok fs ∧
        validate ⟨.toml, 32⟩ n.asToml s "$" = .ok gs ∧ List.Forall₂ Finding.Alike fs gs := by
  intro n s
  have hs : s.Everywhere fun t => Timeless t ∧ Undivided t := by
    refine .intro (by decide) ?_ fun u hu => by cases hu
    exact List.forall_mem_cons.mpr ⟨.leaf (by decide) rfl rfl,
      List.forall_mem_singleton.mpr (.leaf (by decide) rfl rfl)⟩
  refine ⟨fun t ht => (hs t ht).1, fun t ht => (hs t ht).2, ?_⟩
  rintro ⟨fs, -, hjson, -⟩
  have hlasts : Lasts ⟨.json, 32⟩ n.asJson s (Site.ofRoot "$") := exists_validate_iff.mp ⟨fs, hjson⟩
  rw [Native.asJson_dict] at hlasts
  refine hlasts _ _ _ checked_first _ (.pattern ?_ rfl rfl compile_hugeCount)
  exact .of_untyped (by simp) rfl rfl (by simp [Site.member, Site.ofRoot])

end Validator

end Conform
