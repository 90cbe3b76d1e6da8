import Mathlib.Tactic.Lemma
import Conform.Path
import Conform.Value.Basic

/-!
Positions in a document. What is in a node is reached by one step from it, in document order, and a
position is the steps to it from the root. Two documents that differ only below a position have the
same content everywhere else on the way.
-/

namespace Conform.Value

variable {v w x y : Value} {a : Step} {steps : List Step}

/-- What is in a node, in document order, each with the step to it. -/
def children : Value → List (Step × Value)
  | .object ms => ms.map fun m => (.key m.1, m.2)
  | .array vs => vs.mapIdx fun i v => (.index i, v)
  | _ => []

/-- What holds of a node as soon as it holds of all that is in it holds of every node. -/
lemma children_induction {motive : Value → Prop}
    (node : ∀ v : Value, (∀ c ∈ v.children, motive c.2) → motive v) (v : Value) : motive v := by
  induction v using Value.induction with
  | object ms ih =>
    refine node _ fun c hc => ?_
    obtain ⟨m, hm, rfl⟩ := List.mem_map.mp hc
    exact ih m hm
  | array vs ih =>
    refine node _ fun c hc => ?_
    obtain ⟨i, hi, rfl⟩ := List.mem_mapIdx.mp hc
    exact ih _ (List.getElem_mem hi)
  | string | number | boolean | null | temporal => exact node _ (List.forall_mem_nil _)

def at? : Value → List Step → Option Value
  | v, [] => some v
  | v, a :: steps => (v.children.lookup a).bind fun x => x.at? steps

lemma at?_cons_eq_some (h : v.at? (a :: steps) = some x) :
    ∃ y, (a, y) ∈ v.children ∧ y.at? steps = some x := by
  obtain ⟨y, hy, hx⟩ := Option.bind_eq_some_iff.mp h
  obtain ⟨l, r, hc, -⟩ := List.lookup_eq_some_iff.mp hy
  exact ⟨y, by rw [hc]; exact List.mem_append_right l List.mem_cons_self, hx⟩

/-- Two documents have a node at a position and are the same but for what is there. -/
inductive SameOutside : List Step → Value → Value → Prop where
  | here (x y : Value) : SameOutside [] x y
  | member {steps : List Step} {key : String} {x y : Value} (pre post : List (String × Value))
      (h : SameOutside steps x y) :
      SameOutside (.key key :: steps) (.object (pre ++ (key, x) :: post))
        (.object (pre ++ (key, y) :: post))
  | item {steps : List Step} {x y : Value} (pre post : List Value) (h : SameOutside steps x y) :
      SameOutside (.index pre.length :: steps) (.array (pre ++ x :: post))
        (.array (pre ++ y :: post))

end Conform.Value
