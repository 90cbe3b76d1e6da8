import Conform.Proofs.Schema.Keywords

/-!
Schema texts to which keywords are added. Usable keywords are added where they were absent, here and
in the schemas below, all but the type and the properties. What was asked of a node is asked of it
still: a field is at its default before, or it has not changed, the same keywords are malformed, and
what is one step down has been added to in its turn. Only items may come to have a schema that had
none.
-/

namespace Conform.Schema

variable {ms ns : List (String × Json)} {j k l : Json} {w : Keyword} {S : Json → Json → Prop}

/-- The text of a schema with usable keywords added to it, here and in the schemas below, that were
absent. The type and the properties are not added. -/
inductive Extended : Json → Json → Prop where
  | refl (j : Json) : Extended j j
  | trans {j k l : Json} (h : Extended j k) (h' : Extended k l) : Extended j l
  | keyword {w : Keyword} {x : Json} (pre post : List (String × Json))
      (absent : w.name ∉ Members.keys (pre ++ post)) (fits : w.fits x = true)
      (added : w ≠ .type ∧ w ≠ .properties) :
      Extended (.object (pre ++ post)) (.object (pre ++ (w.name, x) :: post))
  | property {j k : Json} (name : String) (ps qs pre post : List (String × Json))
      (h : Extended j k) :
      Extended
        (.object (pre ++ (Keyword.properties.name, .object (ps ++ (name, j) :: qs)) :: post))
        (.object (pre ++ (Keyword.properties.name, .object (ps ++ (name, k) :: qs)) :: post))
  | items {j k : Json} (pre post : List (String × Json)) (h : Extended j k) :
      Extended (.object (pre ++ (Keyword.items.name, j) :: post))
        (.object (pre ++ (Keyword.items.name, k) :: post))

/-- What is asked of a node under the first text is asked of it under the second, and so is what is
asked one step down, up to a relation. -/
structure Tightens (S : Json → Json → Prop) (j k : Json) : Prop where
  isObject : isObject j = isObject k
  type : (ofJson j).type = (ofJson k).type
  shape : (ofJson j).shapeError = (ofJson k).shapeError
  malformed : (ofJson j).malformed = (ofJson k).malformed
  fields : ∀ w : Keyword, w ≠ .properties ∧ w ≠ .items →
    (ofJson j).field w = w.default ∨ (ofJson j).field w = (ofJson k).field w
  declares : ∀ name, fragment? j (.key name) = none → fragment? k (.key name) = none
  below : ∀ a j', fragment? j a = some j' → ∃ k', fragment? k a = some k' ∧ S j' k'

lemma Tightens.refl (hS : ∀ j, S j j) (j : Json) : Tightens S j j where
  isObject := rfl
  type := rfl
  shape := rfl
  malformed := rfl
  fields _ _ := Or.inr rfl
  declares _ := id
  below _ j' hj := ⟨j', hj, hS j'⟩

lemma Tightens.trans (hS : ∀ {j k l}, S j k → S k l → S j l) (h : Tightens S j k)
    (h' : Tightens S k l) : Tightens S j l where
  isObject := h.isObject.trans h'.isObject
  type := h.type.trans h'.type
  shape := h.shape.trans h'.shape
  malformed := h.malformed.trans h'.malformed
  fields w hw := by
    rcases h.fields w hw with heq | heq
    · exact Or.inl heq
    · rw [heq]
      exact h'.fields w hw
  declares name hj := h'.declares name (h.declares name hj)
  below a j' hj := by
    obtain ⟨k', hk, hjk⟩ := h.below a j' hj
    obtain ⟨l', hl, hkl⟩ := h'.below a k' hk
    exact ⟨l', hl, hS hjk hkl⟩

/-- Texts that differ in the setting of one keyword, which is absent in the first or holds schemas. -/
lemma tightens_object (hw : w ≠ .type)
    (other : ∀ u : Keyword, u ≠ w → Members.get? ms u.name = Members.get? ns u.name)
    (absent : w ≠ .properties ∧ w ≠ .items → Members.get? ms w.name = none)
    (malformed : malformedIn ms = malformedIn ns)
    (declares : ∀ name, fragment? (.object ms) (.key name) = none →
      fragment? (.object ns) (.key name) = none)
    (below : ∀ a j', fragment? (.object ms) a = some j' →
      ∃ k', fragment? (.object ns) a = some k' ∧ S j' k') :
    Tightens S (.object ms) (.object ns) where
  isObject := rfl
  type := congrArg (Option.bind · string?) (other .type hw.symm)
  shape := rfl
  malformed := malformed
  fields u hu := by
    rw [field_ofJson, field_ofJson]
    by_cases huw : u = w
    · subst huw
      rw [absent hu]
      exact Or.inl rfl
    · rw [other u huw]
      exact Or.inr rfl
  declares := declares
  below := below

/-! ### Adding to a text -/

lemma malformedIn_append (ms ns : List (String × Json)) :
    malformedIn (ms ++ ns) = malformedIn ms ++ malformedIn ns :=
  List.filterMap_append

lemma fragment?_key_congr {n : String}
    (h : Members.get? ms Keyword.properties.name = Members.get? ns Keyword.properties.name) :
    fragment? (.object ms) (.key n) = fragment? (.object ns) (.key n) := by
  rw [fragment?, fragment?, setting?, setting?, h]

lemma fragment?_index_congr {i : Int}
    (h : Members.get? ms Keyword.items.name = Members.get? ns Keyword.items.name) :
    fragment? (.object ms) (.index i) = fragment? (.object ns) (.index i) := by
  rw [fragment?, fragment?, setting?, setting?, h]

lemma fragment?_key_of_get? {ps : List (String × Json)} {name : String}
    (h : Members.get? ms Keyword.properties.name = some (.object ps)) :
    fragment? (.object ms) (.key name) = Members.get? ps name := by
  rw [fragment?, setting?, h]
  rfl

lemma fragment?_index_of_get? {i : Int} (h : Members.get? ms Keyword.items.name = some j) :
    fragment? (.object ms) (.index i) = object? j := by
  rw [fragment?, setting?, h]
  rfl

lemma tightens_keyword {x : Json} (hS : ∀ j, S j j) (pre post : List (String × Json))
    (absent : w.name ∉ Members.keys (pre ++ post)) (fits : w.fits x = true)
    (added : w ≠ .type ∧ w ≠ .properties) :
    Tightens S (.object (pre ++ post)) (.object (pre ++ (w.name, x) :: post)) := by
  have habsent : Members.get? (pre ++ post) w.name = none := Members.get?_eq_none_iff.mpr absent
  have hother (u : Keyword) (hu : u ≠ w) :
      Members.get? (pre ++ post) u.name = Members.get? (pre ++ (w.name, x) :: post) u.name :=
    (Members.get?_insert_of_ne x pre post (name_ne hu.symm)).symm
  refine tightens_object added.1 hother (fun _ => habsent) ?_ (fun name hj => ?_) fun a j' hj => ?_
  · rw [malformedIn_append, malformedIn_append, malformedIn_cons_of_fits]
    intro u hu
    cases (Keyword.ofName?_name w).symm.trans hu
    exact fits
  · rwa [← fragment?_key_congr (hother .properties added.2.symm)]
  · cases a with
    | key name =>
      rw [fragment?_key_congr (hother .properties added.2.symm)] at hj
      exact ⟨j', hj, hS j'⟩
    | index i =>
      by_cases hw : w = .items
      · subst hw
        rw [fragment?, setting?, habsent] at hj
        cases hj
      · rw [fragment?_index_congr (hother .items (Ne.symm hw))] at hj
        exact ⟨j', hj, hS j'⟩

/-- Texts that differ in the setting of a keyword that holds schemas ask the same of a node itself. -/
lemma tightens_exchange {x y : Json} (pre post : List (String × Json))
    (hw : w = .properties ∨ w = .items) (fits : w.fits x = w.fits y)
    (declares : ∀ name, fragment? (.object (pre ++ (w.name, x) :: post)) (.key name) = none →
      fragment? (.object (pre ++ (w.name, y) :: post)) (.key name) = none)
    (below : ∀ a j', fragment? (.object (pre ++ (w.name, x) :: post)) a = some j' →
      ∃ k', fragment? (.object (pre ++ (w.name, y) :: post)) a = some k' ∧ S j' k') :
    Tightens S (.object (pre ++ (w.name, x) :: post)) (.object (pre ++ (w.name, y) :: post)) := by
  refine tightens_object (w := w) (by rcases hw with rfl | rfl <;> decide) (fun u hu => ?_)
    (fun h => (hw.elim h.1 h.2).elim) ?_ declares below
  · exact Members.get?_exchange_of_ne x y pre post (name_ne hu.symm)
  · rw [malformedIn_append, malformedIn_append, malformedIn_cons_congr fits]

lemma tightens_property (hS : ∀ j, S j j) (name : String) (ps qs pre post : List (String × Json))
    (h : S j k) :
    Tightens S (.object (pre ++ (Keyword.properties.name, .object (ps ++ (name, j) :: qs)) :: post))
      (.object (pre ++ (Keyword.properties.name, .object (ps ++ (name, k) :: qs)) :: post)) := by
  have hindex (i : Int) := fragment?_index_congr (i := i) (Members.get?_exchange_of_ne
    (.object (ps ++ (name, j) :: qs)) (.object (ps ++ (name, k) :: qs)) pre post
    (show Keyword.properties.name ≠ Keyword.items.name by decide))
  have hkey := Members.get?_exchange Keyword.properties.name Keyword.properties.name
    (.object (ps ++ (name, j) :: qs)) (.object (ps ++ (name, k) :: qs)) pre post
  refine tightens_exchange pre post (Or.inl rfl) rfl (fun key hj => ?_) fun a j' hj => ?_
  · rcases hkey with hsame | ⟨hx, hy⟩
    · rwa [← fragment?_key_congr hsame]
    · rw [fragment?_key_of_get? hx, Members.get?_eq_none_iff] at hj
      rw [fragment?_key_of_get? hy, Members.get?_eq_none_iff]
      simpa [Members.keys] using hj
  · cases a with
    | index i => exact ⟨j', (hindex i).symm.trans hj, hS j'⟩
    | key key =>
      rcases hkey with hsame | ⟨hx, hy⟩
      · exact ⟨j', (fragment?_key_congr hsame).symm.trans hj, hS j'⟩
      rw [fragment?_key_of_get? hx] at hj
      rw [fragment?_key_of_get? hy]
      rcases Members.get?_exchange name key j k ps qs with hsame | ⟨hj', hk'⟩
      · exact ⟨j', hsame.symm.trans hj, hS j'⟩
      · cases hj'.symm.trans hj
        exact ⟨k, hk', h⟩

lemma tightens_items (hS : ∀ j, S j j) (pre post : List (String × Json))
    (hobject : isObject j = isObject k) (h : S j k) :
    Tightens S (.object (pre ++ (Keyword.items.name, j) :: post))
      (.object (pre ++ (Keyword.items.name, k) :: post)) := by
  have hkey (key : String) := fragment?_key_congr (n := key) (Members.get?_exchange_of_ne j k
    pre post (show Keyword.items.name ≠ Keyword.properties.name by decide))
  refine tightens_exchange pre post (Or.inr rfl) hobject (fun key hj => ?_) fun a j' hj => ?_
  · rwa [← hkey key]
  · cases a with
    | key key => exact ⟨j', (hkey key).symm.trans hj, hS j'⟩
    | index i =>
      rcases Members.get?_exchange Keyword.items.name Keyword.items.name j k pre post with
        hsame | ⟨hx, hy⟩
      · exact ⟨j', (fragment?_index_congr hsame).symm.trans hj, hS j'⟩
      rw [fragment?_index_of_get? hx, object?, Option.ite_none_right_eq_some] at hj
      obtain ⟨hshape, hj⟩ := hj
      cases hj
      exact ⟨k, by rw [fragment?_index_of_get? hy, object?, ← hobject, if_pos hshape], h⟩

theorem Extended.tightens (h : Extended j k) : Tightens Extended j k := by
  induction h with
  | refl j => exact .refl .refl j
  | trans _ _ ih ih' => exact ih.trans .trans ih'
  | keyword pre post absent fits added => exact tightens_keyword .refl pre post absent fits added
  | property name ps qs pre post h => exact tightens_property .refl name ps qs pre post h
  | items pre post h ih => exact tightens_items .refl pre post ih.isObject h

end Conform.Schema
