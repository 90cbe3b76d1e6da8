import Conform.Proofs.Json.Reading

/-!
How far the reading of a text comes. A place is reached if everything before it is read; what
fails at a value that is reached makes the whole text fail.
-/

namespace Conform.Json

open Fallible

variable {text : List Char} {c c₁ c₂ : Cursor} {j : Json} {room : Nat} {f : Fault}

/-- What begins at a place: a value, the items of an array, or the members of an object. -/
inductive Place where
  | value
  | items
  | members

/-- A value is read, and the text goes on behind it and the blanks that follow. -/
def Passes (room : Nat) (c c' : Cursor) : Prop :=
  ∃ j c₁, valueAt room c = .ok (j, c₁) ∧ c' = c₁.skip

def PassesKey (c c' : Cursor) : Prop :=
  ∃ r key c₁ r₁, c.rest = '"' :: r ∧ readString (c.move 1) = .ok (key, c₁) ∧
    c₁.skip.rest = ':' :: r₁ ∧ c' = c₁.skip.next

lemma Passes.length_lt (h : Passes room c c₁) : c₁.rest.length < c.rest.length := by
  obtain ⟨j, k, hv, rfl⟩ := h
  have := (length_read _).1 _ _ _ _ hv
  have := length_skip_le k
  omega

lemma PassesKey.length_lt (h : PassesKey c c₁) : c₁.rest.length < c.rest.length := by
  obtain ⟨r, key, k, r₁, hr, hs, hr₁, rfl⟩ := h
  have := length_move_one_lt (c := c) (by simp [hr])
  have := length_readString hs
  have := length_skip_le k
  have := length_next_lt (c := k.skip) (by simp [hr₁])
  omega

/-- The places of a text that are reached, with the containers that may still be opened there. -/
inductive Reached (text : List Char) : Place → (room : Nat) → Cursor → Prop where
  | root (noMark : text.head? ≠ some '\ufeff') :
      Reached text .value nestingLimit (Cursor.skip ⟨text, 0⟩)
  | items {room : Nat} {c : Cursor} {r : List Char} (value : Reached text .value (room + 1) c)
      (opens : c.rest = '[' :: r) (filled : ∀ r', c.next.rest ≠ ']' :: r') :
      Reached text .items room c.next
  | members {room : Nat} {c : Cursor} {r : List Char} (value : Reached text .value (room + 1) c)
      (opens : c.rest = '\x7b' :: r) (filled : ∀ r', c.next.rest ≠ '\x7d' :: r') :
      Reached text .members room c.next
  | item {room : Nat} {c : Cursor} (items : Reached text .items room c) : Reached text .value room c
  | nextItem {room : Nat} {c c' : Cursor} {r : List Char} (items : Reached text .items room c)
      (item : Passes room c c') (more : c'.rest = ',' :: r) : Reached text .items room c'.next
  | member {room : Nat} {c c' : Cursor} (members : Reached text .members room c)
      (key : PassesKey c c') : Reached text .value room c'
  | nextMember {room : Nat} {c c' c'' : Cursor} {r : List Char}
      (members : Reached text .members room c) (key : PassesKey c c') (value : Passes room c' c'')
      (more : c''.rest = ',' :: r) : Reached text .members room c''.next

lemma valueAt_array {r : List Char} (hr : c.rest = '[' :: r)
    (hf : ∀ r', c.next.rest ≠ ']' :: r') :
    valueAt (room + 1) c = itemsAt room c.next [] >>= fun p => pure (.array p.1, p.2) := by
  have hlt := length_next_lt (c := c) (by simp [hr])
  rw [valueAt, readValue, hr]
  simp only
  rw [readItems_eq (by rw [hr] at hlt; omega)]

lemma valueAt_object {r : List Char} (hr : c.rest = '\x7b' :: r)
    (hf : ∀ r', c.next.rest ≠ '\x7d' :: r') :
    valueAt (room + 1) c =
      pairsAt room c.next [] >>= fun p => pure (.object (Members.ofPairs p.1), p.2) := by
  have hlt := length_next_lt (c := c) (by simp [hr])
  rw [valueAt, readValue, hr]
  simp only
  rw [readPairs_eq (by rw [hr] at hlt; omega)]

lemma itemsAt_of_ok {r : List Char} (done : List Json) (hv : valueAt room c = .ok (j, c₁))
    (hr : c₁.skip.rest = ',' :: r) :
    itemsAt room c done = itemsAt room c₁.skip.next (j :: done) := by
  have := (length_read _).1 _ _ _ _ hv
  have := length_skip_le c₁
  have := length_next_lt (c := c₁.skip) (by simp [hr])
  rw [itemsAt, readItems, ← valueAt, hv]
  simp only [ok_bind, hr]
  exact readItems_eq (by omega)

lemma itemsAt_of_error (done : List Json) (hv : valueAt room c = .error f) :
    itemsAt room c done = .error f := by
  rw [itemsAt, readItems, ← valueAt, hv, error_bind]

lemma pairsAt_of_error (done : List (String × Json)) (hk : PassesKey c c₁)
    (hv : valueAt room c₁ = .error f) : pairsAt room c done = .error f := by
  have hlt := hk.length_lt
  obtain ⟨r, key, k, r₁, hr, hs, hr₁, rfl⟩ := hk
  rw [pairsAt, readPairs]
  simp only [hr, hs, ok_bind, hr₁]
  rw [← hr, readValue_eq (by omega), hv, error_bind]

lemma pairsAt_of_ok {r : List Char} (done : List (String × Json)) (hk : PassesKey c c₁)
    (hv : valueAt room c₁ = .ok (j, c₂)) (hr : c₂.skip.rest = ',' :: r) :
    ∃ key, pairsAt room c done = pairsAt room c₂.skip.next ((key, j) :: done) := by
  have hlt := hk.length_lt
  have := (length_read _).1 _ _ _ _ hv
  have := length_skip_le c₂
  have := length_next_lt (c := c₂.skip) (by simp [hr])
  obtain ⟨r', key, k, r₁, hr', hs, hr₁, rfl⟩ := hk
  refine ⟨key, ?_⟩
  rw [pairsAt, readPairs]
  simp only [hr', hs, ok_bind, hr₁]
  rw [← hr', readValue_eq (by omega), hv, ok_bind]
  simp only [hr]
  exact readPairs_eq (by omega)

/-! ### What fails where it is reached -/

def Fails (f : Fault) : Place → (room : Nat) → Cursor → Prop
  | .value, room, c => valueAt room c = .error f
  | .items, room, c => ∀ done, itemsAt room c done = .error f
  | .members, room, c => ∀ done, pairsAt room c done = .error f

lemma parse_eq (hm : text.head? ≠ some '\ufeff') :
    parse text = valueAt nestingLimit (Cursor.skip ⟨text, 0⟩) >>= fun p =>
      if p.2.skip.rest.isEmpty then pure p.1 else p.2.skip.fail .extraData := by
  have hle : (Cursor.skip ⟨text, 0⟩).rest.length ≤ text.length := length_skip_le ⟨text, 0⟩
  rw [parse, if_neg hm, readValue_eq (by omega)]

/-- What fails where it is reached makes the whole text fail. -/
theorem parse_of_reached {place : Place} (h : Reached text place room c)
    (hf : Fails f place room c) : parse text = .error f := by
  induction h with
  | root hm =>
    rw [parse_eq hm, hf, error_bind]
  | items _ hr hfill ih => exact ih (by rw [Fails, valueAt_array hr hfill, hf, error_bind])
  | members _ hr hfill ih => exact ih (by rw [Fails, valueAt_object hr hfill, hf, error_bind])
  | item _ ih => exact ih fun done => itemsAt_of_error done hf
  | nextItem _ hp hr ih =>
    obtain ⟨j, c₁, hv, rfl⟩ := hp
    exact ih fun done => by rw [itemsAt_of_ok done hv hr, hf]
  | member _ hk ih => exact ih fun done => pairsAt_of_error done hk hf
  | nextMember _ hk hp hr ih =>
    refine ih fun done => ?_
    obtain ⟨j, c₁, hv, rfl⟩ := hp
    obtain ⟨key, h⟩ := pairsAt_of_ok done hk hv hr
    rw [h, hf]

end Conform.Json
