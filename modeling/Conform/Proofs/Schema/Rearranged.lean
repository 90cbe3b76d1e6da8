import Mathlib.Data.Option.Defs
import Conform.Proofs.Schema.Stripped

/-!
Schema texts in another order. The keywords of a schema and the entries of its properties may stand
in any order, and keywords that are not understood may be there or not, here and in every schema
below. Texts that differ in nothing else ask the same of a node itself, have the same malformed
keywords but for their order, and what is one step down in them differs in nothing else again.
-/

namespace Conform.Schema

variable {ms ns : List (String × Json)} {j k x y : Json} {a : Step} {w : Keyword} {key : String}

/-- The texts of two schemas differ only in the order of keywords, in the order of the entries of
properties and in keywords that are not understood, here and in the schemas below. Where members
change places no key stands twice, as in every text that is decoded. -/
inductive Rearranged : Json → Json → Prop where
  | refl (j : Json) : Rearranged j j
  | symm {j k : Json} (h : Rearranged j k) : Rearranged k j
  | trans {j k l : Json} (h : Rearranged j k) (h' : Rearranged k l) : Rearranged j l
  | keywords {ms ns : List (String × Json)} (nodup : (Members.keys ms).Nodup) (perm : ms.Perm ns) :
      Rearranged (.object ms) (.object ns)
  | unknown {key : String} (setting : Json) (ms : List (String × Json))
      (h : Keyword.ofName? key = none) : Rearranged (.object ((key, setting) :: ms)) (.object ms)
  | entries {ps qs : List (String × Json)} (ms : List (String × Json))
      (nodup : (Members.keys ps).Nodup) (perm : ps.Perm qs) :
      Rearranged (.object ((Keyword.properties.name, .object ps) :: ms))
        (.object ((Keyword.properties.name, .object qs) :: ms))
  | property {j k : Json} (name : String) (ps ms : List (String × Json)) (h : Rearranged j k) :
      Rearranged (.object ((Keyword.properties.name, .object ((name, j) :: ps)) :: ms))
        (.object ((Keyword.properties.name, .object ((name, k) :: ps)) :: ms))
  | items {j k : Json} (ms : List (String × Json)) (h : Rearranged j k) :
      Rearranged (.object ((Keyword.items.name, j) :: ms))
        (.object ((Keyword.items.name, k) :: ms))

/-- Two texts are read alike at the root, and what is one step down in them is related. -/
structure Agree (S : Json → Json → Prop) (j k : Json) : Prop where
  isObject : isObject j = isObject k
  own : (ofJson j).own = (ofJson k).own
  malformed : (ofJson j).malformed.Perm (ofJson k).malformed
  fragments : ∀ a, Option.Rel S (fragment? j a) (fragment? k a)

lemma agree_of_get? (h : ∀ w : Keyword, Members.get? ms w.name = Members.get? ns w.name)
    (hm : (malformedIn ms).Perm (malformedIn ns)) :
    Agree Rearranged (.object ms) (.object ns) where
  isObject := rfl
  own := own_congr fun w read _ _ => by rw [setting?, setting?, h]
  malformed := hm
  fragments a := by
    have heq : fragment? (.object ms) a = fragment? (.object ns) a := by
      cases a <;> simp only [fragment?, setting?, h]
    exact heq ▸ rel_refl .refl _

lemma name_ne {u : Keyword} (h : w ≠ u) : w.name ≠ u.name := by
  intro hn
  have hw := Keyword.ofName?_name w
  rw [hn, Keyword.ofName?_name] at hw
  exact h (Option.some.inj hw).symm

lemma malformedIn_cons_congr (h : w.fits x = w.fits y) :
    malformedIn ((w.name, x) :: ms) = malformedIn ((w.name, y) :: ms) := by
  simp only [malformedIn, List.filterMap_cons, Keyword.ofName?_name, h]

lemma agree_of_setting (hw : w = .properties ∨ w = .items) (hfits : w.fits x = w.fits y)
    (h : ∀ a, Option.Rel Rearranged (fragment? (.object ((w.name, x) :: ms)) a)
      (fragment? (.object ((w.name, y) :: ms)) a)) :
    Agree Rearranged (.object ((w.name, x) :: ms)) (.object ((w.name, y) :: ms)) where
  isObject := rfl
  own := own_congr fun u read hu _ => by
    have hne : w ≠ u := by
      rintro rfl
      exact hw.elim hu.1 hu.2
    simp only [setting?, Members.get?, if_neg (name_ne hne)]
  malformed := .of_eq (malformedIn_cons_congr hfits)
  fragments := h

lemma fragment?_property (ps ms : List (String × Json)) (name : String) :
    fragment? (.object ((Keyword.properties.name, .object ps) :: ms)) (.key name) =
      Members.get? ps name := rfl

lemma fragment?_items (j : Json) (ms : List (String × Json)) (i : Int) :
    fragment? (.object ((Keyword.items.name, j) :: ms)) (.index i) = object? j := rfl

/-- Texts rearranged are read alike at the root, and what is one step down is rearranged. -/
theorem Rearranged.agree (h : Rearranged j k) : Agree Rearranged j k := by
  induction h with
  | refl j => exact ⟨rfl, rfl, .refl _, fun a => rel_refl .refl _⟩
  | symm _ ih =>
    exact ⟨ih.isObject.symm, ih.own.symm, ih.malformed.symm, fun a => rel_symm .symm (ih.fragments a)⟩
  | trans _ _ ih ih' =>
    exact ⟨ih.isObject.trans ih'.isObject, ih.own.trans ih'.own, ih.malformed.trans ih'.malformed,
      fun a => rel_trans .trans (ih.fragments a) (ih'.fragments a)⟩
  | keywords nodup perm =>
    exact agree_of_get? (fun w => Members.get?_eq_of_perm nodup perm w.name) (perm.filterMap _)
  | @unknown key setting ms h =>
    refine agree_of_get? (fun w => ?_) (.of_eq ?_)
    · have hne : key ≠ w.name := by
        rintro rfl
        rw [Keyword.ofName?_name] at h
        cases h
      rw [Members.get?, if_neg hne]
    · refine malformedIn_cons_of_fits fun w hw => ?_
      rw [h] at hw
      cases hw
  | @entries ps qs ms nodup perm =>
    refine agree_of_setting (Or.inl rfl) rfl fun a => ?_
    cases a with
    | key name =>
      rw [fragment?_property, fragment?_property, Members.get?_eq_of_perm nodup perm]
      exact rel_refl .refl _
    | index i => exact rel_refl .refl _
  | @property j k name ps ms h ih =>
    refine agree_of_setting (Or.inl rfl) rfl fun a => ?_
    cases a with
    | key name' =>
      rw [fragment?_property, fragment?_property, Members.get?, Members.get?]
      split
      · exact .some h
      · exact rel_refl .refl _
    | index i => exact rel_refl .refl _
  | @items j k ms h ih =>
    refine agree_of_setting (Or.inr rfl) ih.isObject fun a => ?_
    cases a with
    | key name => exact rel_refl .refl _
    | index i =>
      rw [fragment?_items, fragment?_items, object?, object?, ih.isObject]
      split
      · exact .some h
      · exact .none

end Conform.Schema
