import Conform.Proofs.Path
import Conform.Proofs.Validator.Checked

/-!
Where findings are. The path of a checked pair leads down from that of the root, and a violation is
found at the path of its pair or at that of one of its members; so a finding of the walk on a member
or item lies beyond the step to it, and findings beyond two steps have two paths.
-/

namespace Conform.Validator

variable {d : Dialect} {e : Setup} {v x : Value} {s t u : Schema} {p q : Site} {f g : Finding}
  {path : String}

/-- Some steps lead from a path to that of a finding. -/
def AtOrBelow (path : String) (f : Finding) : Prop :=
  ∃ steps : List Step, f.path = steps.foldl Path.down path

/-- A step, and maybe more behind it, leads from a path to that of a finding. -/
def Beyond (path : String) (s : Step) (f : Finding) : Prop := AtOrBelow (Path.down path s) f

lemma atOrBelow_of_eq (h : f.path = path) : AtOrBelow path f := ⟨[], h⟩

lemma Beyond.path_ne {a : Step} (h : Beyond path a f) : f.path ≠ path := by
  obtain ⟨steps, hf⟩ := h
  intro hp
  have hsteps : ([] : List Step).foldl Path.down path = (a :: steps).foldl Path.down path :=
    hp.symm.trans hf
  cases Path.eq_of_foldl_down_eq hsteps

lemma Beyond.step_eq {a b : Step} (hf : Beyond path a f) (hg : Beyond path b g)
    (h : f.path = g.path) : a = b := by
  obtain ⟨steps, hf⟩ := hf
  obtain ⟨steps', hg⟩ := hg
  have hsteps : (a :: steps).foldl Path.down path = (b :: steps').foldl Path.down path :=
    hf.symm.trans (h.trans hg)
  exact (List.cons.inj (Path.eq_of_foldl_down_eq hsteps)).1

/-- The steps from the root of a walk to a checked pair are as many as the pair lies deeper. -/
lemma Checked.exists_steps (h : Checked e v s p x t q) :
    ∃ steps : List Step,
      q.path = steps.foldl Path.down p.path ∧ q.depth = p.depth + steps.length := by
  induction h with
  | root => exact ⟨[], rfl, rfl⟩
  | @member _ _ _ _ key _ _ _ _ _ ih =>
    obtain ⟨steps, hq, hdepth⟩ := ih
    refine ⟨steps ++ [.key key], ?_, ?_⟩
    · rw [List.foldl_append, ← hq]
      rfl
    · rw [List.length_append, ← Nat.add_assoc, ← hdepth]
      rfl
  | @item _ _ _ _ i _ _ _ _ _ ih =>
    obtain ⟨steps, hq, hdepth⟩ := ih
    refine ⟨steps ++ [.index i], ?_, ?_⟩
    · rw [List.foldl_append, ← hq]
      rfl
    · rw [List.length_append, ← Nat.add_assoc, ← hdepth]
      rfl

@[simp] lemma path_invalidType {expected found : String} {inArray : Bool} :
    (Finding.invalidType path expected found inArray).path = path := by
  cases inArray <;> rfl

lemma EntryViolation.path_eq (h : EntryViolation e v s p f) : f.path = p.path := by
  cases h with
  | wrongType => exact path_invalidType
  | noSchema | tooDeep | malformed | unknownType | wrongForm => rfl

lemma ContentViolation.atOrBelow (h : ContentViolation d s path v f) : AtOrBelow path f := by
  cases h with
  | @missingTable _ name => exact ⟨[.key name], rfl⟩
  | @missingProperty _ name => exact ⟨[.key name], rfl⟩
  | @undeclared _ key => exact ⟨[.key key], rfl⟩
  | tooFewItems | tooManyItems | tooShort | tooLong | faultyPattern | noMatch | belowMinimum
  | aboveMaximum | notAbove | notBelow | noMultiple | notListed => exact atOrBelow_of_eq rfl

lemma Violation.atOrBelow (h : Violation e v s p f) : AtOrBelow p.path f := by
  rcases h with h | ⟨-, h⟩
  · exact atOrBelow_of_eq h.path_eq
  · exact h.atOrBelow

/-! ### The walk -/

/-- A finding of the walk lies at the site of the walk or below it. -/
theorem atOrBelow_of_mem_walk (h : .ok f ∈ walk e v s p) : AtOrBelow p.path f := by
  obtain ⟨x, t, q, hc, hv⟩ := explains_of_mem_walk h
  obtain ⟨steps, hq, -⟩ := hc.exists_steps
  obtain ⟨more, hf⟩ := Violation.atOrBelow hv
  exact ⟨steps ++ more, by rw [List.foldl_append, ← hq, hf]⟩

lemma beyond_of_mem_walk_member {key : String} (h : .ok f ∈ walk e x u (p.member key)) :
    Beyond p.path (.key key) f :=
  atOrBelow_of_mem_walk h

lemma beyond_of_mem_walk_item {i : Nat} (h : .ok f ∈ walk e x u (p.item i)) :
    Beyond p.path (.index i) f :=
  atOrBelow_of_mem_walk h

lemma beyond_missingFinding {name : String} :
    Beyond path (.key name) (missingFinding d s path name) := by
  refine atOrBelow_of_eq ?_
  unfold missingFinding
  split
  · split <;> rfl
  · rfl

lemma beyond_of_mem_undeclaredFindings {key : String} (h : f ∈ undeclaredFindings s path key) :
    Beyond path (.key key) f := by
  obtain ⟨-, rfl⟩ := mem_undeclaredFindings.mp h
  exact atOrBelow_of_eq rfl

lemma beyond_of_mem_walkMembers {ms : List (String × Value)} (h : .ok f ∈ walkMembers e ms s p) :
    ∃ key ∈ Members.keys ms, Beyond p.path (.key key) f := by
  obtain ⟨key, x, hm, hf⟩ := mem_walkMembers.mp h
  refine ⟨key, List.mem_map_of_mem hm, ?_⟩
  rcases hf with ⟨u, -, hf⟩ | ⟨-, hf⟩
  · exact beyond_of_mem_walk_member hf
  · exact beyond_of_mem_undeclaredFindings (Notice.ok_mem_ofFindings.mp hf)

lemma beyond_of_mem_walkItems {vs : List Value} {k : Nat} (h : .ok f ∈ walkItems e vs u p k) :
    ∃ i : Nat, k ≤ i ∧ Beyond p.path (.index i) f := by
  obtain ⟨j, x, -, hf⟩ := mem_walkItems.mp h
  exact ⟨k + j, by omega, beyond_of_mem_walk_item hf⟩

end Conform.Validator
