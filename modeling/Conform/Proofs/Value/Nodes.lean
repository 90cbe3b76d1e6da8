import Conform.Proofs.Value.Positions

/-!
The nodes of a document: the document itself and, from node to node, what is in them. What goes for
everything in a node goes on down to all nodes.
-/

namespace Conform.Value

variable {v w x : Value} {P Q : Value → Prop}

inductive Node (v : Value) : Value → Prop where
  | root : Node v v
  | child {w : Value} {c : Step × Value} (h : Node v w) (mem : c ∈ w.children) : Node v c.2

def Everywhere (P : Value → Prop) (v : Value) : Prop := ∀ w, v.Node w → P w

lemma Node.of_child {c : Step × Value} (hc : c ∈ v.children) (h : c.2.Node w) : v.Node w := by
  induction h with
  | root => exact .child .root hc
  | child _ hm ih => exact .child ih hm

lemma Node.root_or_below (h : v.Node w) : w = v ∨ ∃ c ∈ v.children, c.2.Node w := by
  induction h with
  | root => exact Or.inl rfl
  | child _ hm ih =>
    obtain rfl | ⟨c, hc, hw⟩ := ih
    · exact Or.inr ⟨_, hm, .root⟩
    · exact Or.inr ⟨c, hc, hw.child hm⟩

/-- What holds here and everywhere in what is in the node holds everywhere. -/
lemma Everywhere.intro (here : P v) (children : ∀ c ∈ v.children, c.2.Everywhere P) :
    v.Everywhere P := by
  intro w hw
  obtain rfl | ⟨c, hc, hcw⟩ := hw.root_or_below
  · exact here
  · exact children c hc w hcw

lemma Everywhere.here (h : v.Everywhere P) : P v := h v .root

lemma Everywhere.child {c : Step × Value} (h : v.Everywhere P) (hc : c ∈ v.children) :
    c.2.Everywhere P :=
  fun w hw => h w (hw.of_child hc)

lemma Everywhere.item {vs : List Value} (h : (array vs).Everywhere P) (hx : x ∈ vs) :
    x.Everywhere P := by
  obtain ⟨i, hi, rfl⟩ := List.getElem_of_mem hx
  exact h.child (c := (.index i, vs[i])) (List.mem_mapIdx.mpr ⟨i, hi, rfl⟩)

lemma Everywhere.member {ms : List (String × Value)} {m : String × Value}
    (h : (object ms).Everywhere P) (hm : m ∈ ms) : m.2.Everywhere P :=
  h.child (c := (.key m.1, m.2)) (List.mem_map_of_mem hm)

/-- What is kept from each node to all that is in it holds everywhere, if it holds of the root. -/
lemma Everywhere.of_children (here : Q v) (down : ∀ w, Q w → ∀ c ∈ w.children, Q c.2) :
    v.Everywhere Q := by
  intro w hw
  induction hw with
  | root => exact here
  | child _ hm ih => exact down _ ih _ hm

/-- Where all that is in a tree of some sort is again one, what holds of these trees holds of all
their nodes. -/
lemma Everywhere.of_image {α : Type} {f : α → Value} (here : ∀ a, P (f a))
    (down : ∀ a, ∀ c ∈ (f a).children, ∃ b, c.2 = f b) (a : α) : (f a).Everywhere P := by
  have hall : (f a).Everywhere fun w => ∃ b, w = f b := by
    refine .of_children ⟨a, rfl⟩ ?_
    rintro _ ⟨b, rfl⟩ c hc
    exact down b c hc
  intro w hw
  obtain ⟨b, rfl⟩ := hall w hw
  exact here b

lemma Everywhere.imp (h : v.Everywhere P) (hpq : ∀ w, P w → Q w) : v.Everywhere Q :=
  fun w hw => hpq w (h w hw)

end Conform.Value
