import Mathlib.Data.List.Perm.Basic
import Conform.Proofs.Schema.Rearranged
import Conform.Proofs.Validator.Malformed
import Conform.Proofs.Validator.Paired

/-!
Validation under schema texts in another order. Malformed keywords are told of in the order in which
they stand; nothing else that is told depends on the order of a text, or on keywords that are not
understood. So the findings under both texts are the same position by position, but where two
malformed keywords of one node have changed places.
-/

namespace Conform

def Schema.WellFormed (s : Schema) : Prop := s.Everywhere fun t => t.malformed = []

namespace Validator

open Notice Schema

variable {e : Setup} {v : Value} {path : String} {j k : Json} {p : Site}

/-- Two findings are one, or both tell of a malformed keyword at one place. -/
inductive Interchangeable : Finding → Finding → Prop where
  | same (f : Finding) : Interchangeable f f
  | malformed (path key key' : String) :
      Interchangeable (.other path ("Malformed schema keyword '" ++ key ++ "'"))
        (.other path ("Malformed schema keyword '" ++ key' ++ "'"))

/-- Notices are the same but for their order, and that only among malformed keywords. -/
def Reordered (ns ms : List Notice) : Prop :=
  ns.Perm ms ∧ List.Forall₂ (Paired Interchangeable) ns ms

lemma reordered_malformed {keys keys' : List String} (h : keys.Perm keys') :
    Reordered
      (ofFindings (keys.map fun k => .other path ("Malformed schema keyword '" ++ k ++ "'")))
      (ofFindings (keys'.map fun k => .other path ("Malformed schema keyword '" ++ k ++ "'"))) := by
  refine ⟨(h.map _).map _, paired_ofFindings ?_⟩
  rw [List.forall₂_map_left_iff, List.forall₂_map_right_iff, List.forall₂_iff_zip]
  exact ⟨h.length_eq, fun _ => .malformed path _ _⟩

/-- Under texts rearranged, the same is told but for the order of malformed keywords. -/
lemma variant_rearranged : Variant Rearranged Reordered where
  own h := h.agree.own
  fragments h := h.agree.fragments
  malformed _ h := reordered_malformed h.agree.malformed
  same _ := ⟨.refl _, paired_same Interchangeable.same _⟩
  append h h' := ⟨h.1.append h'.1, List.rel_append h.2 h'.2⟩

/-- If no keyword is malformed, the same is told in the same order. -/
lemma variant_wellFormed : Variant (fun j k => Rearranged j k ∧ (ofJson j).WellFormed) Eq where
  own h := h.1.agree.own
  fragments := by
    rintro j k ⟨h, hj⟩ a
    have hr := h.agree.fragments a
    have hu : (ofJson j).under? a = (fragment? j a).map ofJson := under?_ofJson
    generalize fragment? j a = o at hr hu
    generalize fragment? k a = o' at hr
    cases hr with
    | none => exact .none
    | some hr => exact .some ⟨hr, hj.under hu⟩
  malformed := by
    rintro j k path ⟨h, hj⟩
    have hperm := h.agree.malformed
    have hnil : (ofJson j).malformed = [] := hj.here
    rw [hnil] at hperm
    rw [malformedFindings, malformedFindings, hnil, hperm.nil_eq]
  same _ := rfl
  append h h' := by rw [h, h']

/-- **Order does not matter**: under schema texts that differ only in the order of keywords and of
properties and in keywords that are not understood, validations have the same findings but for the
order in which the malformed keywords of a node are told, exactly if no checked pair breaks off, and
end with the same interruption otherwise. If no keyword is malformed, they answer the same. -/
theorem validate_rearranged (h : Rearranged j k) :
    ((∃ fs gs, validate e v (ofJson j) path = .ok fs ∧ validate e v (ofJson k) path = .ok gs ∧
        fs.Perm gs ∧ List.Forall₂ Interchangeable fs gs) ↔
      Lasts e v (ofJson j) (Site.ofRoot path)) ∧
    (∀ i, validate e v (ofJson j) path = .error i ↔ validate e v (ofJson k) path = .error i) ∧
    ((ofJson j).WellFormed → validate e v (ofJson j) path = validate e v (ofJson k) path) := by
  obtain ⟨hperm, hpaired⟩ := variant_rearranged.walk (e := e) (v := v) (p := Site.ofRoot path) h
  obtain ⟨hok, herror⟩ := validate_paired hpaired
  refine ⟨⟨?_, fun hl => ?_⟩, herror, fun hj => ?_⟩
  · rintro ⟨fs, -, hfs, -⟩
    exact lasts_of_validate hfs
  · obtain ⟨fs, gs, hfs, hgs, hfg⟩ := hok.mpr hl
    rw [eq_ofFindings_of_gather hfs, eq_ofFindings_of_gather hgs] at hperm
    exact ⟨fs, gs, hfs, hgs, (List.map_perm_map_iff fun _ _ => Except.ok.inj).mp hperm, hfg⟩
  · exact congrArg gather (variant_wellFormed.walk ⟨h, hj⟩)

/-- Two malformed keywords change places, and so do two properties; a keyword that is not understood
goes. The schema of the one property is well formed, and is read alike without its comment. -/
theorem validate_rearranged_person :
    let name (r : List (String × Json)) : Json :=
      .object (r ++ [("type", .string "string"), ("maxLength", .number (.int 2))])
    let j : Json := .object
      [("$id", .string "person"), ("minLength", .string "one"), ("maxLength", .string "two"),
        ("properties", .object [("name", name [("$comment", .null)]), ("age", .object [])])]
    let k : Json := .object
      [("properties", .object [("age", .object []), ("name", name [])]),
        ("maxLength", .string "two"), ("minLength", .string "one")]
    let v : Value := .object [("name", .string "Ada")]
    let long : Finding := .invalidValue "$.name"
      "String is longer than allowed maximum length 2" "length <= 2" "length 3"
    let fs : List Finding :=
      [.other "$" "Malformed schema keyword 'minLength'",
        .other "$" "Malformed schema keyword 'maxLength'", long]
    let gs : List Finding :=
      [.other "$" "Malformed schema keyword 'maxLength'",
        .other "$" "Malformed schema keyword 'minLength'", long]
    Rearranged j k ∧ validate ⟨.json, 32⟩ v (ofJson j) "$" = .ok fs ∧
      validate ⟨.json, 32⟩ v (ofJson k) "$" = .ok gs ∧ fs.Perm gs ∧
      List.Forall₂ Interchangeable fs gs ∧
      (ofJson (name [("$comment", .null)])).WellFormed ∧
      validate ⟨.json, 32⟩ v (ofJson (name [("$comment", .null)])) "$" =
        validate ⟨.json, 32⟩ v (ofJson (name [])) "$" := by
  intro name j k v long fs gs
  have hname : Rearranged (name [("$comment", .null)]) (name []) := .unknown .null _ rfl
  have h : Rearranged j k := by
    refine .trans (.unknown (.string "person") _ rfl) ?_
    refine .trans (.keywords (by decide) (List.reverse_perm _).symm) ?_
    refine .trans (.property "name" [("age", .object [])] _ hname) ?_
    exact .entries _ (by decide) (.swap _ _ _)
  have hj : validate ⟨.json, 32⟩ v (ofJson j) "$" = .ok fs := by decide +kernel
  have hk : validate ⟨.json, 32⟩ v (ofJson k) "$" = .ok gs := by decide +kernel
  obtain ⟨fs', gs', hfs, hgs, hperm, hpaired⟩ :=
    (validate_rearranged h).1.mpr (lasts_of_validate hj)
  obtain rfl : fs = fs' := Except.ok.inj (hj.symm.trans hfs)
  obtain rfl : gs = gs' := Except.ok.inj (hk.symm.trans hgs)
  have hw : (ofJson (name [("$comment", .null)])).WellFormed := .leaf (by decide) rfl rfl
  exact ⟨h, hj, hk, hperm, hpaired, hw, (validate_rearranged hname).2.2 hw⟩

end Validator

end Conform
