import Conform.Proofs.Schema.Steps
import Conform.Proofs.Validator.Walk
import Conform.Proofs.Value.Positions

/-!
The walk, from a node to what is in it. Members and items are walked in one way: each step down has
a schema for it or has none. So the notices of a node that is entered are those of the malformed
keywords, then those of the node itself, then those of all that is in it, and the listed values
last; a node that is not entered has the notices of its entry alone.
-/

namespace Conform

def Step.isIndex : Step → Bool
  | .key _ => false
  | .index _ => true

namespace Validator

open Notice

variable {d : Dialect} {e : Setup} {v x : Value} {s t : Schema} {p : Site} {f : Finding}
  {path : String} {a : Step}

def Site.down (p : Site) (a : Step) : Site := ⟨Path.down p.path a, p.depth + 1, a.isIndex⟩

/-- The notices of a node itself, listed values apart. -/
def contentNotices (d : Dialect) (s : Schema) (path : String) : Value → List Notice
  | .object ms => ofFindings (missingFindings d s path ms)
  | .array vs => ofFindings (sizeFindings s path vs.length)
  | .string text => textNotices s path text ((Value.string text).display Value.displayLimit)
  | .temporal k text =>
    textNotices s path text ((Value.temporal k text).display Value.displayLimit)
  | .number _ n => numberNotices s path n
  | .boolean _ | .null => []

lemma contentViolation_of_mem_contentNotices (h : .ok f ∈ contentNotices d s path v) :
    ContentViolation d s path v f := by
  cases v with
  | object ms => exact contentViolation_object.mpr (Or.inl (ok_mem_ofFindings.mp h))
  | array vs => exact contentViolation_array.mpr (Or.inl (ok_mem_ofFindings.mp h))
  | string | temporal => exact (contentViolation_text rfl).mpr (Or.inl h)
  | number => exact contentViolation_number.mpr (Or.inl (ok_mem_numberNotices.mp h).2)
  | boolean | null => cases h

/-- What is said of a step down for which there is no schema. -/
def strayFindings (s : Schema) (path : String) : Step → List Finding
  | .key k => undeclaredFindings s path k
  | .index _ => []

def childNotices (e : Setup) (s : Schema) (p : Site) (c : Step × Value) : List Notice :=
  match s.under? c.1 with
  | some t => walk e c.2 t (p.down c.1)
  | none => ofFindings (strayFindings s p.path c.1)

lemma childNotices_of_some (h : s.under? a = some t) :
    childNotices e s p (a, x) = walk e x t (p.down a) := by
  simp only [childNotices, h]

lemma childNotices_of_none (h : s.under? a = none) :
    childNotices e s p (a, x) = ofFindings (strayFindings s p.path a) := by
  simp only [childNotices, h]

lemma walkMembers_eq (ms : List (String × Value)) :
    walkMembers e ms s p = (Value.object ms).children.flatMap (childNotices e s p) := by
  simp only [Value.children]
  induction ms with
  | nil => rfl
  | cons m r ih =>
    obtain ⟨key, v⟩ := m
    rw [walkMembers, ih, List.map_cons, List.flatMap_cons]
    rfl

lemma walkItems_eq (vs : List Value) (k : Nat) (h : s.items = some t) :
    walkItems e vs t p k =
      (vs.mapIdx fun i v => (Step.index ((i + k : Nat) : Int), v)).flatMap (childNotices e s p) := by
  induction vs generalizing k with
  | nil => rfl
  | cons v r ih =>
    have hi : s.under? (.index ((0 + k : Nat) : Int)) = some t := h
    rw [walkItems, ih, List.mapIdx_cons, List.flatMap_cons, childNotices_of_some hi, Nat.zero_add]
    simp only [Nat.add_assoc, Nat.add_comm 1]
    rfl

lemma items_flatMap (vs : List Value) :
    (match s.items with
      | some t => walkItems e vs t p 0
      | none => []) = (Value.array vs).children.flatMap (childNotices e s p) := by
  cases h : s.items with
  | some t => exact walkItems_eq vs 0 h
  | none =>
    refine (List.flatMap_eq_nil_iff.mpr fun c hc => ?_).symm
    obtain ⟨i, hi, rfl⟩ := List.mem_mapIdx.mp hc
    exact childNotices_of_none h

theorem walk_eq (e : Setup) (v : Value) (s : Schema) (p : Site) :
    walk e v s p = around e v s p fun _ =>
      contentNotices e.dialect s p.path v ++ v.children.flatMap (childNotices e s p) := by
  cases v with
  | object ms =>
    rw [walk, walkMembers_eq]
    rfl
  | array vs =>
    rw [walk]
    exact congrArg (around e _ s p) (funext fun _ => congrArg (_ ++ ·) (items_flatMap vs))
  | string | number | boolean | null | temporal =>
    rw [walk]
    simp only [contentNotices, Value.children, List.flatMap_nil, List.append_nil]

lemma walk_of_entered (h : Entered e v s p) :
    walk e v s p = ofFindings (malformedFindings s p.path) ++
      (contentNotices e.dialect s p.path v ++ v.children.flatMap (childNotices e s p) ++
        ofFindings (enumFindings s p.path v)) := by
  rw [walk_eq, around, if_pos (enters_iff.mpr h), entry_findings_of_entered h]

lemma walk_of_not_entered (h : ¬Entered e v s p) :
    walk e v s p = ofFindings (entry e v s p).findings := by
  rw [walk_eq, around, if_neg fun he => h (enters_iff.mp he), List.append_nil]

end Validator

end Conform
