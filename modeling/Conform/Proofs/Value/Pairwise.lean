import Mathlib.Data.List.Forall2
import Conform.Proofs.Value.Positions

/-!
Containers side by side. If the items of two arrays, or the members of two objects with the same
keys, are related one by one, then so is what is one step down; and if they equal the same literals,
so do the containers.
-/

namespace Conform.Value

variable {T : Value → Value → Prop} {vs ws : List Value} {ms ns : List (String × Value)}

def MemberWise (T : Value → Value → Prop) (m n : String × Value) : Prop := m.1 = n.1 ∧ T m.2 n.2

def StepWise (T : Value → Value → Prop) (c c' : Step × Value) : Prop := c.1 = c'.1 ∧ T c.2 c'.2

lemma forall₂_of_keys_eq (keys : Members.keys ms = Members.keys ns)
    (values : ∀ x ∈ ms.zip ns, T x.1.2 x.2.2) : List.Forall₂ (MemberWise T) ms ns := by
  induction ms generalizing ns with
  | nil =>
    cases ns with
    | nil => exact .nil
    | cons => cases keys
  | cons m r ih =>
    cases ns with
    | nil => cases keys
    | cons n r' =>
      obtain ⟨hkey, hkeys⟩ := List.cons.inj keys
      obtain ⟨hvalue, hvalues⟩ := List.forall_mem_cons.mp values
      exact .cons ⟨hkey, hvalue⟩ (ih hkeys hvalues)

lemma forall₂_children_object (h : List.Forall₂ (MemberWise T) ms ns) :
    List.Forall₂ (StepWise T) (object ms).children (object ns).children := by
  simp only [children, List.forall₂_map_left_iff, List.forall₂_map_right_iff]
  exact h.imp fun m n hm => ⟨congrArg Step.key hm.1, hm.2⟩

lemma forall₂_mapIdx (h : List.Forall₂ T vs ws) (k : Nat) :
    List.Forall₂ (StepWise T) (vs.mapIdx fun i v => (.index ((i + k : Nat) : Int), v))
      (ws.mapIdx fun i v => (.index ((i + k : Nat) : Int), v)) := by
  induction h generalizing k with
  | nil => exact .nil
  | cons hv _ ih =>
    simp only [List.mapIdx_cons, Nat.add_right_comm _ 1 k]
    exact .cons ⟨rfl, hv⟩ (ih (k + 1))

lemma forall₂_children_array (h : List.Forall₂ T vs ws) :
    List.Forall₂ (StepWise T) (array vs).children (array ws).children :=
  forall₂_mapIdx h 0

def SameLiterals (v w : Value) : Prop := ∀ j, v.equals j = w.equals j

lemma equalItems_congr (h : List.Forall₂ SameLiterals vs ws) (js : List Json) :
    equalItems vs js = equalItems ws js := by
  induction h generalizing js with
  | nil => rfl
  | cons hv _ ih =>
    cases js with
    | nil => simp only [equalItems]
    | cons j js => simp only [equalItems, hv j, ih js]

lemma equalMembers_congr (h : List.Forall₂ (MemberWise SameLiterals) ms ns)
    (js : List (String × Json)) : equalMembers ms js = equalMembers ns js := by
  induction h with
  | nil => rfl
  | @cons m n _ _ hm _ ih =>
    obtain ⟨k, v⟩ := m
    obtain ⟨l, w⟩ := n
    obtain ⟨rfl, hv⟩ : k = l ∧ SameLiterals v w := hm
    simp only [equalMembers, ih, hv _]

lemma sameLiterals_array (h : List.Forall₂ SameLiterals vs ws) :
    SameLiterals (array vs) (array ws) := by
  intro j
  cases j with
  | array js => simp only [equals, equalItems_congr h]
  | null | bool | number | string | object => simp only [equals]

lemma sameLiterals_object (h : List.Forall₂ (MemberWise SameLiterals) ms ns) :
    SameLiterals (object ms) (object ns) := by
  intro j
  cases j with
  | object js => simp only [equals, h.length_eq, equalMembers_congr h]
  | null | bool | number | string | array => simp only [equals]

end Conform.Value
