import Conform.Proofs.Schema.Renamed
import Conform.Proofs.Validator.Paired
import Conform.Proofs.Validator.Simulation

/-!
Validation under schemas with other names for the same types. A type is looked up by its name, a
value is held against it, and a missing member is reported as a table if its schema declares one. At
each of these a name does what its synonyms do, so all that differs in the findings is the name of
the type that was expected.
-/

namespace Conform

def Finding.OnType (f : Finding) : Prop :=
  f.kind = .invalidType ∨ f.kind = .invalidArrayItemType

/-- Two findings agree in all but the name of the type that was expected. -/
structure Finding.SameButType (d : Dialect) (f g : Finding) : Prop where
  kind : f.kind = g.kind
  path : f.path = g.path
  message : f.message = g.message
  found : f.found = g.found
  expected : f.expected = g.expected ∨ f.OnType ∧ Synonym d f.expected g.expected

namespace Finding.SameButType

variable {d : Dialect} {f g h : Finding}

lemma refl (f : Finding) : SameButType d f f := ⟨rfl, rfl, rfl, rfl, Or.inl rfl⟩

lemma onType_iff (h : SameButType d f g) : f.OnType ↔ g.OnType := by
  rw [OnType, OnType, h.kind]

lemma symm (h : SameButType d f g) : SameButType d g f where
  kind := h.kind.symm
  path := h.path.symm
  message := h.message.symm
  found := h.found.symm
  expected := h.expected.imp Eq.symm fun ⟨ht, hs⟩ => ⟨h.onType_iff.mp ht, hs.symm⟩

lemma trans (hfg : SameButType d f g) (hgh : SameButType d g h) : SameButType d f h where
  kind := hfg.kind.trans hgh.kind
  path := hfg.path.trans hgh.path
  message := hfg.message.trans hgh.message
  found := hfg.found.trans hgh.found
  expected := by
    rcases hfg.expected with heq | ⟨ht, hs⟩
    · rw [heq, hfg.onType_iff]
      exact hgh.expected
    · refine Or.inr ⟨ht, ?_⟩
      rcases hgh.expected with heq | ⟨-, hs'⟩
      · exact heq ▸ hs
      · exact hs.trans hs'

end Finding.SameButType

namespace Validator

open Notice Schema

variable {d : Dialect} {e : Setup} {v : Value} {s t : Schema} {p : Site} {path : String}
  {a b : Option String}

/-- What is told of a value against the type of a schema, if it has one. -/
def settingFindings (d : Dialect) (a : Option String) (p : Site) (v : Value) : List Finding :=
  match a with
  | some type => typeFindings d type p v
  | none => []

/-- Two names of rules that take the same values and ask for no written form. -/
lemma settingFindings_of_rules {name name' : String} (r r' : TypeRule)
    (hs : Synonym d (some name) (some name')) (hr : d.rule? name = some r)
    (hr' : d.rule? name' = some r') (accepts : r.accepts d v = r'.accepts d v)
    (form : formFindings r p.path v = formFindings r' p.path v) :
    List.Forall₂ (Finding.SameButType d) (settingFindings d (some name) p v)
      (settingFindings d (some name') p v) := by
  simp only [settingFindings, typeFindings, hr, hr', ← accepts, ← form]
  split
  · exact List.forall₂_same.mpr fun f _ => .refl f
  · refine .cons ?_ .nil
    cases p.inArray
    · exact ⟨rfl, rfl, rfl, rfl, Or.inr ⟨Or.inl rfl, hs⟩⟩
    · exact ⟨rfl, rfl, rfl, rfl, Or.inr ⟨Or.inr rfl, hs⟩⟩

lemma settingFindings_synonym (h : Synonym d a b) :
    List.Forall₂ (Finding.SameButType d) (settingFindings d a p v) (settingFindings d b p v) := by
  induction h with
  | table =>
    cases d <;> exact settingFindings_of_rules .object .table .table rfl rfl rfl rfl
  | any =>
    have hany : settingFindings d (some "any") p v = [] := by cases d <;> rfl
    rw [hany]
    exact .nil
  | number hd =>
    subst hd
    refine settingFindings_of_rules .float .number (.number rfl) rfl rfl ?_ rfl
    cases v <;> rfl
  | refl a => exact List.forall₂_same.mpr fun f _ => .refl f
  | symm _ ih => exact (ih.imp fun _ _ h => h.symm).flip
  | trans _ _ ih ih' => exact forall₂_trans .trans ih ih'

/-- In TOML an integer is a number and no float: the two names are no synonyms there. -/
example : TypeRule.accepts .toml .float (.number .integer (.int 1)) = false ∧
    TypeRule.accepts .toml .number (.number .integer (.int 1)) = true := by decide

/-- A type declares a table if its synonyms do. -/
lemma declaresTable_synonym (h : Synonym d s.type t.type) : s.declaresTable = t.declaresTable := by
  rw [declaresTable, declaresTable]
  generalize s.type = a at h
  generalize t.type = b at h
  induction h with
  | table | any | number | refl => rfl
  | symm _ ih => exact ih.symm
  | trans _ _ ih ih' => exact ih.trans ih'

/-! ### Nodes -/

variable {S : Schema → Schema → Prop}

/-- The checks before a node is entered are those without its type, and then the type. -/
lemma entry_untyped :
    entry e v s p =
      ⟨(entry e v s.untyped p).findings ++
          if (entry e v s.untyped p).enters then settingFindings e.dialect s.type p v else [],
        (entry e v s.untyped p).enters && (settingFindings e.dialect s.type p v).isEmpty⟩ := by
  simp only [entry, malformedFindings, untyped]
  split
  · rfl
  · split
    · rfl
    · split
      · rfl
      · cases s.type with
        | none => exact congrArg (Entry.mk · true) (List.append_nil _).symm
        | some type => rfl

/-- A node is entered as before, and the same is told of it before, but for the name of its type. -/
lemma entry_renames (h : Renames e.dialect S s t) :
    List.Forall₂ (Finding.SameButType e.dialect) (entry e v s p).findings
        (entry e v t p).findings ∧
      (entry e v s p).enters = (entry e v t p).enters := by
  have htype := settingFindings_synonym (p := p) (v := v) h.type
  rw [entry_untyped (s := s), entry_untyped (s := t), ← h.untyped, ← isEmpty_of_forall₂ htype]
  refine ⟨List.rel_append (List.forall₂_same.mpr fun f _ => .refl f) ?_, rfl⟩
  split
  · exact htype
  · exact .nil

lemma constraints_renames (h : Renames d S s t) : constraints s = constraints t :=
  eq_of_untyped constraints (fun _ => rfl) h.untyped

lemma contentNotices_renames (h : Renames d (Renamed d) s t) :
    contentNotices d s path v = contentNotices d t path v :=
  contentNotices_congr (constraints_renames h) fun name =>
    missingFinding_congr (fun hr => declaresTable_synonym hr.renames.type) (h.under (.key name))

lemma simulation_renamed : Simulation e e (fun v s w t => v = w ∧ Renamed e.dialect s t)
    (List.Forall₂ (Paired (Finding.SameButType e.dialect))) where
  nil := .nil
  append h h' := List.rel_append h h'
  around := by
    rintro v s _ t p inside inside' ⟨rfl, h⟩ hin
    obtain ⟨hfindings, henters⟩ := entry_renames (v := v) (p := p) h.renames
    have hlisted : enumFindings s p.path v = enumFindings t p.path v :=
      enumFindings_congr (constraints_renames h.renames)
    rw [around, around, ← henters, ← hlisted]
    refine List.rel_append (paired_ofFindings hfindings) ?_
    split
    · exact List.rel_append hin (paired_same .refl _)
    · exact .nil
  content := by
    rintro v s _ t path ⟨rfl, h⟩
    rw [contentNotices_renames h.renames]
    exact paired_same .refl _
  children := by
    rintro v s _ t ⟨rfl, h⟩
    refine List.forall₂_same.mpr fun c _ => ⟨rfl, fun path => ?_, ?_⟩
    · rw [strayFindings_congr (constraints_renames h.renames)]
      exact paired_same .refl _
    · exact rel_imp (fun hr => ⟨rfl, hr⟩) (h.renames.under c.1)

/-- **Synonyms**: under schemas that differ only in the types of some nodes, which are synonymous,
validations have findings that agree one by one in all but the name of the type that was expected,
exactly if no checked pair breaks off, and end with the same interruption otherwise. -/
theorem validate_renamed (h : Renamed e.dialect s t) :
    ((∃ fs gs, validate e v s path = .ok fs ∧ validate e v t path = .ok gs ∧
        List.Forall₂ (Finding.SameButType e.dialect) fs gs) ↔
      Lasts e v s (Site.ofRoot path)) ∧
    ∀ i, validate e v s path = .error i ↔ validate e v t path = .error i :=
  validate_paired (simulation_renamed.walk ⟨rfl, h⟩)

/-- A table that is missing and an item that is none, under two schemas with other names for the
types of the root, of a property, of an array and of its items. -/
theorem validate_renamed_tables :
    let s : Schema :=
      { required := ["owner"]
        properties := [("owner", { type := some "object" }),
          ("hosts", { type := some "any", items := some { type := some "table" } })] }
    let t : Schema :=
      { type := some "any"
        required := ["owner"]
        properties := [("owner", { type := some "table" }),
          ("hosts", { items := some { type := some "object" } })] }
    let v : Value := .object [("hosts", .array [.boolean true])]
    let fs (expected : String) : List Finding :=
      [.tableNotFound "$.owner" "owner", .invalidType "$.hosts[0]" expected "boolean" true]
    Renamed .toml s t ∧ validate ⟨.toml, 32⟩ v s "$" = .ok (fs "table") ∧
      validate ⟨.toml, 32⟩ v t "$" = .ok (fs "object") ∧
      List.Forall₂ (Finding.SameButType .toml) (fs "table") (fs "object") := by
  intro s t v fs
  have hhosts : Renamed .toml { type := some "any", items := some { type := some "table" } }
      { items := some { type := some "object" } } :=
    .trans (.type Synonym.any.symm) (.items {} (.type Synonym.table.symm))
  have h : Renamed .toml s t := by
    refine .trans (.type .any) ?_
    refine .trans (.property { type := some "any", required := ["owner"] } "owner" [] _
      (.type .table)) ?_
    exact .property { type := some "any", required := ["owner"] } "hosts" [_] [] hhosts
  have hs : validate ⟨.toml, 32⟩ v s "$" = .ok (fs "table") := by decide +kernel
  have ht : validate ⟨.toml, 32⟩ v t "$" = .ok (fs "object") := by decide +kernel
  obtain ⟨fs', gs', hfs, hgs, hpaired⟩ :=
    (validate_renamed (e := ⟨.toml, 32⟩) h).1.mpr (lasts_of_validate hs)
  obtain rfl : fs "table" = fs' := Except.ok.inj (hs.symm.trans hfs)
  obtain rfl : fs "object" = gs' := Except.ok.inj (ht.symm.trans hgs)
  exact ⟨h, hs, ht, hpaired⟩

end Validator

end Conform
