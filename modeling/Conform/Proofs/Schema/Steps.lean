import Conform.Path
import Conform.Proofs.Schema.Nodes

/-!
Steps down a schema. The schema for what is one step down a document is that of a property or that
of the items. In a schema that is read, it is itself read from a fragment of the same text.
-/

namespace Conform.Schema

variable {ms : List (String × Json)} {j k : Json} {a : Step}

/-- The schema for what is one step down. -/
def under? (s : Schema) : Step → Option Schema
  | .key k => s.property? k
  | .index _ => s.items

lemma Everywhere.under {s t : Schema} {P : Schema → Prop} (h : s.Everywhere P)
    (ht : s.under? a = some t) : t.Everywhere P := by
  cases a with
  | key name => exact h.property ht
  | index i => exact h.items ht

def follow? : Schema → List Step → Option Schema
  | s, [] => some s
  | s, a :: steps => (s.under? a).bind fun t => t.follow? steps

section Rel

variable {α : Type} {S T : α → α → Prop} {o o' o'' : Option α}

lemma rel_imp (hST : ∀ {x y}, S x y → T x y) (h : Option.Rel S o o') : Option.Rel T o o' := by
  cases h with
  | none => exact .none
  | some h => exact .some (hST h)

lemma rel_refl (hS : ∀ x, S x x) (o : Option α) : Option.Rel S o o := by
  cases o with
  | none => exact .none
  | some x => exact .some (hS x)

lemma rel_symm (hS : ∀ {x y}, S x y → S y x) (h : Option.Rel S o o') : Option.Rel S o' o := by
  cases h with
  | none => exact .none
  | some h => exact .some (hS h)

lemma rel_trans (hS : ∀ {x y z}, S x y → S y z → S x z) (h : Option.Rel S o o')
    (h' : Option.Rel S o' o'') : Option.Rel S o o'' := by
  cases h with
  | none => exact h'
  | some h =>
    cases h' with
    | some h' => exact .some (hS h h')

end Rel

def members? : Json → Option (List (String × Json))
  | .object ms => some ms
  | _ => none

def object? (j : Json) : Option Json := if isObject j then some j else none

/-- The fragment from which the schema for what is one step down is read. -/
def fragment? : Json → Step → Option Json
  | .object ms, .key name => (setting? ms .properties members?).bind fun ps => Members.get? ps name
  | .object ms, .index _ => setting? ms .items object?
  | _, _ => none

lemma ofMembers_eq (ms : List (String × Json)) :
    ofMembers ms = ms.map fun m => (m.1, ofJson m.2) := by
  induction ms with
  | nil => rfl
  | cons m r ih => rw [ofMembers, ih, List.map_cons]

lemma propertiesIn_eq (ms : List (String × Json)) :
    propertiesIn ms = ofMembers ((setting? ms .properties members?).getD []) := by
  induction ms with
  | nil => rfl
  | cons m r ih =>
    obtain ⟨key, j⟩ := m
    by_cases hk : key = Keyword.properties.name
    · unfold propertiesIn
      rw [if_pos hk, setting?, Members.get?, if_pos hk, Option.bind_some]
      cases j <;> rfl
    · unfold propertiesIn
      rw [if_neg hk, ih, setting?, setting?, Members.get?, if_neg hk]

lemma itemsIn_eq (ms : List (String × Json)) :
    itemsIn ms = (setting? ms .items object?).map ofJson := by
  induction ms with
  | nil => rfl
  | cons m r ih =>
    obtain ⟨key, j⟩ := m
    by_cases hk : key = Keyword.items.name
    · rw [itemsIn, if_pos hk, setting?, Members.get?, if_pos hk, Option.bind_some, object?]
      split <;> rfl
    · rw [itemsIn, if_neg hk, ih, setting?, setting?, Members.get?, if_neg hk]

/-- The schema one step down a schema that is read is read from the fragment there. -/
lemma under?_ofJson : (ofJson j).under? a = (fragment? j a).map ofJson := by
  cases j with
  | object ms =>
    cases a with
    | key name =>
      rw [under?, property?, ofJson, fragment?, propertiesIn_eq, ofMembers_eq, Members.get?_map]
      cases setting? ms .properties members? <;> rfl
    | index i =>
      rw [under?, ofJson, fragment?, itemsIn_eq]
  | null | bool | number | string | array => cases a <;> rfl

lemma keysDistinct_of_fragment? (h : j.KeysDistinct) (hk : fragment? j a = some k) :
    k.KeysDistinct := by
  cases j with
  | object ms =>
    cases a with
    | key name =>
      obtain ⟨ps, hps, hk⟩ := Option.bind_eq_some_iff.mp hk
      obtain ⟨l, hl, hps⟩ := Option.bind_eq_some_iff.mp hps
      cases l with
      | object qs =>
        cases hps
        exact (h.member (Members.mem_of_get? hl)).member (Members.mem_of_get? hk)
      | null | bool | number | string | array => cases hps
    | index i =>
      obtain ⟨l, hl, hk⟩ := Option.bind_eq_some_iff.mp hk
      unfold object? at hk
      split at hk
      · cases hk
        exact h.member (Members.mem_of_get? hl)
      · cases hk
  | null | bool | number | string | array => cases a <;> cases hk

end Conform.Schema
