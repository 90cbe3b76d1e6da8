import Conform.Proofs.Schema.Stripped
import Conform.Proofs.Validator.Simulation
import Conform.Proofs.Validator.Words

/-!
Malformed keywords. That a keyword is malformed is told, and that is all that comes of it. Under
texts that ask the same of a node itself, here and in every schema below, a node is entered alike,
and the same is said of it and of what is in it, but for malformed keywords; and what is left of a
text without such keywords asks the same.
-/

namespace Conform.Validator

open Notice Schema

variable {d : Dialect} {e : Setup} {v x : Value} {s : Schema} {p : Site} {f : Finding}
  {fs : List Finding} {ns : List Notice} {path words : String} {j k : Json} {a : Step}

def OnMalformed (f : Finding) : Prop := f.kind = .other ∧ Opens "Malformed schema keyword '" f

noncomputable def withoutMalformed : List Finding → List Finding :=
  Finding.select fun f => ¬OnMalformed f

/-- The choice of what tells anything but that a keyword is malformed. -/
noncomputable def tellsElse : Notice → Bool := choice true fun f => ¬OnMalformed f

lemma not_onMalformed_of_opens (h : Opens words f)
    (hw : Parted words "Malformed schema keyword '") : ¬OnMalformed f :=
  fun hf => not_opens_of_opens h hw hf.2

lemma not_onMalformed_of_mem_typeFindings {type : String} (h : f ∈ typeFindings d type p v) :
    ¬OnMalformed f :=
  fun hf => speaks_typeFindings.not_opens (by decide +kernel) h hf.2

lemma ContentViolation.not_onMalformed (h : ContentViolation d s path v f) : ¬OnMalformed f := by
  intro hf
  rcases h.opens_of_other hf.1 with ho | ho
  · exact not_onMalformed_of_opens ho (by decide +kernel) hf
  · exact not_onMalformed_of_opens ho (by decide +kernel) hf

lemma not_onMalformed_of_mem_strayFindings (h : f ∈ strayFindings s path a) : ¬OnMalformed f := by
  cases a with
  | key key =>
    obtain ⟨-, rfl⟩ := mem_undeclaredFindings.mp h
    exact not_onMalformed_of_opens ⟨_, String.append_assoc⟩ (by decide +kernel)
  | index i => cases h

lemma withoutMalformed_malformedFindings : withoutMalformed (malformedFindings s path) = [] := by
  refine Finding.select_eq_nil fun f hf => ?_
  obtain ⟨k, -, rfl⟩ := mem_malformedFindings.mp hf
  exact not_not_intro ⟨rfl, k ++ "'", String.append_assoc⟩

/-! ### Schema texts side by side -/

lemma shapeError_opens {error : String} (h : (ofJson j).shapeError = some error) :
    Opens "Schema fragment must be an object, found " (.other path error) := by
  cases j with
  | object ms => cases h
  | null | bool | number | string | array =>
    cases h
    exact ⟨_, rfl⟩

lemma depth_opens {m : Int} : Opens "Maximum nesting depth of "
    (.other path ("Maximum nesting depth of " ++ toString m ++ " exceeded")) :=
  ⟨_, String.append_assoc⟩

/-- Texts are related that ask the same of a node itself, with related texts one step down. Notices
are related that are the same and not on malformed keywords, or tell of the malformed keywords of
related texts, or are put together from related ones. -/
structure Variant (S : Json → Json → Prop) (R : List Notice → List Notice → Prop) : Prop where
  own : ∀ {j k}, S j k → (ofJson j).own = (ofJson k).own
  fragments : ∀ {j k}, S j k → ∀ a, Option.Rel S (fragment? j a) (fragment? k a)
  malformed : ∀ {j k} path, S j k → R (ofFindings (malformedFindings (ofJson j) path))
    (ofFindings (malformedFindings (ofJson k) path))
  same : ∀ {ns}, (∀ f, .ok f ∈ ns → ¬OnMalformed f) → R ns ns
  append : ∀ {ns ms ns' ms'}, R ns ms → R ns' ms' → R (ns ++ ns') (ms ++ ms')

namespace Variant

variable {S : Json → Json → Prop} {R : List Notice → List Notice → Prop}

lemma ofFindings (h : Variant S R) (hf : ∀ f ∈ fs, ¬OnMalformed f) :
    R (ofFindings fs) (ofFindings fs) :=
  h.same fun f hm => hf f (ok_mem_ofFindings.mp hm)

/-- A node is entered as before, and the same is told of it before but for malformed keywords. -/
lemma entry (h : Variant S R) (hs : S j k) :
    R (Notice.ofFindings (entry e v (ofJson j) p).findings)
        (Notice.ofFindings (entry e v (ofJson k) p).findings) ∧
      (entry e v (ofJson j) p).enters = (entry e v (ofJson k) p).enters := by
  have htype : (ofJson j).type = (ofJson k).type := eq_of_own Schema.type (fun _ => rfl) (h.own hs)
  have hshape : (ofJson j).shapeError = (ofJson k).shapeError :=
    eq_of_own Schema.shapeError (fun _ => rfl) (h.own hs)
  have hopens {words : String} {f : Finding} (ho : Opens words f)
      (hw : Parted words "Malformed schema keyword '") :
      R (Notice.ofFindings [f]) (Notice.ofFindings [f]) :=
    h.ofFindings (List.forall_mem_singleton.mpr (not_onMalformed_of_opens ho hw))
  simp only [Validator.entry, ← htype, ← hshape]
  split
  · exact ⟨h.ofFindings (List.forall_mem_nil _), rfl⟩
  · split
    · next error herror => exact ⟨hopens (shapeError_opens herror) (by decide +kernel), rfl⟩
    · split
      · exact ⟨hopens depth_opens (by decide +kernel), rfl⟩
      · split
        · exact ⟨h.malformed p.path hs, rfl⟩
        · refine ⟨?_, rfl⟩
          simp only [Notice.ofFindings, List.map_append]
          exact h.append (h.malformed p.path hs)
            (h.ofFindings fun f => not_onMalformed_of_mem_typeFindings)

lemma under (h : Variant S R) (hs : S j k) (a : Step) :
    Option.Rel (fun s t => ∃ j' k', S j' k' ∧ s = ofJson j' ∧ t = ofJson k')
      ((ofJson j).under? a) ((ofJson k).under? a) := by
  have hr := h.fragments hs a
  rw [under?_ofJson, under?_ofJson]
  generalize fragment? j a = o at hr ⊢
  generalize fragment? k a = o' at hr ⊢
  cases hr with
  | none => exact .none
  | some hs' => exact .some ⟨_, _, hs', rfl, rfl⟩

lemma constraints_eq (h : Variant S R) (hs : S j k) :
    constraints (ofJson j) = constraints (ofJson k) :=
  eq_of_own constraints (fun _ => rfl) (h.own hs)

lemma contentNotices (h : Variant S R) (hs : S j k) :
    contentNotices d (ofJson j) path v = contentNotices d (ofJson k) path v := by
  refine contentNotices_congr (h.constraints_eq hs) fun name => ?_
  refine missingFinding_congr ?_ (h.under hs (.key name))
  rintro _ _ ⟨j', k', hs', rfl, rfl⟩
  exact eq_of_own declaresTable (fun _ => rfl) (h.own hs')

/-- A document is walked side by side under related texts. -/
lemma simulation (h : Variant S R) : Simulation e e
    (fun v s w t => v = w ∧ ∃ j k, S j k ∧ s = ofJson j ∧ t = ofJson k) R where
  nil := h.same fun f hf => nomatch hf
  append := h.append
  around := by
    rintro v _ _ _ p inside inside' ⟨rfl, j, k, hs, rfl, rfl⟩ hin
    obtain ⟨hfindings, henters⟩ := h.entry (e := e) (v := v) (p := p) hs
    have hlisted : enumFindings (ofJson j) p.path v = enumFindings (ofJson k) p.path v :=
      enumFindings_congr (h.constraints_eq hs)
    rw [around, around, ← henters, ← hlisted]
    refine h.append hfindings ?_
    split
    · refine h.append hin (h.ofFindings fun f hf => ?_)
      obtain ⟨js, -, -, rfl⟩ := mem_enumFindings.mp hf
      rintro ⟨⟨⟩, -⟩
    · exact h.same fun f hf => nomatch hf
  content := by
    rintro v _ _ _ path ⟨rfl, j, k, hs, rfl, rfl⟩
    rw [← h.contentNotices hs]
    exact h.same fun f hf => (contentViolation_of_mem_contentNotices hf).not_onMalformed
  children := by
    rintro v _ _ _ ⟨rfl, j, k, hs, rfl, rfl⟩
    refine List.forall₂_same.mpr fun c _ => ⟨rfl, fun path => ?_, ?_⟩
    · rw [← strayFindings_congr (h.constraints_eq hs)]
      exact h.ofFindings fun f => not_onMalformed_of_mem_strayFindings
    · exact rel_imp (fun hr => ⟨rfl, hr⟩) (h.under hs c.1)

theorem walk (h : Variant S R) (hs : S j k) :
    R (walk e v (ofJson j) p) (walk e v (ofJson k) p) :=
  h.simulation.walk ⟨rfl, j, k, hs, rfl, rfl⟩

end Variant

/-! ### What is left of a schema text -/

lemma variant_stripped : Variant (fun j k => j.KeysDistinct ∧ k = stripped j)
    fun ns ms => ms = ns.filter tellsElse where
  own := by
    rintro j _ ⟨hj, rfl⟩
    exact (own_stripped hj).symm
  fragments := by
    rintro j _ ⟨hj, rfl⟩ a
    rw [fragment?_stripped hj]
    cases hk : fragment? j a with
    | none => exact .none
    | some k => exact .some ⟨keysDistinct_of_fragment? hj hk, rfl⟩
  malformed := by
    rintro j _ path ⟨hj, rfl⟩
    rw [tellsElse, filter_choice_ofFindings, ← withoutMalformed, withoutMalformed_malformedFindings,
      malformedFindings, malformed_stripped, List.map_nil]
  same h := (filter_choice_eq_self h).symm
  append h h' := by rw [h, h', List.filter_append]

/-- The walk under what is left of a schema text tells all but malformed keywords. -/
theorem walk_stripped (hj : j.KeysDistinct) :
    walk e v (ofJson (stripped j)) p = (walk e v (ofJson j) p).filter tellsElse :=
  variant_stripped.walk ⟨hj, rfl⟩

/-- **Malformed keywords** are only told of: a validation under a schema text without them, here and
in every schema below, finds the same but for what is told of them, and answers with an interruption
if and only if one under the whole text does. -/
theorem validate_stripped (hj : j.KeysDistinct) :
    (validate e v (ofJson j) path).map withoutMalformed =
      validate e v (ofJson (stripped j)) path := by
  rw [validate, validate, walk_stripped hj]
  exact gather_choice.symm

/-- Malformed keywords at the root, at a property and at the items of another. What is told but for
them is what is told under the text without them. -/
theorem validate_stripped_nested :
    let size : Json := .object [("minimum", .string "four"), ("maximum", .number (.int 2))]
    let name : Json := .object [("type", .string "string"), ("minLength", .number (.int (-1)))]
    let j : Json := .object
      [("required", .string "name"),
        ("properties", .object [("name", name), ("sizes", .object [("items", size)])]),
        ("title", .bool true)]
    let left : Json := .object
      [("properties", .object
          [("name", .object [("type", .string "string")]),
            ("sizes", .object [("items", .object [("maximum", .number (.int 2))])])]),
        ("title", .bool true)]
    let v : Value := .object [("name", .boolean true), ("sizes", .array [.number .number (.int 3)])]
    let fs : List Finding :=
      [.other "$" "Malformed schema keyword 'required'",
        .other "$.name" "Malformed schema keyword 'minLength'",
        .invalidType "$.name" "string" "boolean" false,
        .other "$.sizes[0]" "Malformed schema keyword 'minimum'",
        .invalidValue "$.sizes[0]" "Number is greater than allowed maximum 2" "<= 2" "3"]
    j.KeysDistinct ∧ stripped j = left ∧ validate ⟨.json, 32⟩ v (ofJson j) "$" = .ok fs ∧
      validate ⟨.json, 32⟩ v (ofJson left) "$" = .ok (withoutMalformed fs) := by
  intro size name j left v fs
  have hj : j.KeysDistinct := by simp [j, name, size, Members.keys]
  have hleft : stripped j = left := rfl
  have hrun : validate ⟨.json, 32⟩ v (ofJson j) "$" = .ok fs := by decide +kernel
  refine ⟨hj, hleft, hrun, ?_⟩
  rw [← hleft, ← validate_stripped hj, hrun]
  rfl

end Conform.Validator
