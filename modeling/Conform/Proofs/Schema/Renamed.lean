import Conform.Dialect
import Conform.Proofs.Schema.Steps

/-!
Schemas with other names for the same types. A type may be called by another of its names, or be
left out where any will do, here and in the schemas below. Such schemas have synonymous types, ask
for the same otherwise, and what is one step down in them differs in nothing else again.
-/

namespace Conform

/-- The settings of a type, absent or a name, that mean the same in a dialect. -/
inductive Synonym (d : Dialect) : Option String → Option String → Prop where
  | table : Synonym d (some "object") (some "table")
  | any : Synonym d none (some "any")
  | number (h : d = .json) : Synonym d (some "float") (some "number")
  | refl (a : Option String) : Synonym d a a
  | symm {a b : Option String} (h : Synonym d a b) : Synonym d b a
  | trans {a b c : Option String} (h : Synonym d a b) (h' : Synonym d b c) : Synonym d a c

namespace Schema

variable {d : Dialect} {s t : Schema}

/-- Two schemas differ only in the types of some nodes, which are synonymous. -/
inductive Renamed (d : Dialect) : Schema → Schema → Prop where
  | refl (s : Schema) : Renamed d s s
  | trans {s t u : Schema} (h : Renamed d s t) (h' : Renamed d t u) : Renamed d s u
  | type {s : Schema} {type : Option String} (h : Synonym d s.type type) :
      Renamed d s { s with type }
  | property {t u : Schema} (s : Schema) (name : String) (pre post : List (String × Schema))
      (h : Renamed d t u) :
      Renamed d { s with properties := pre ++ (name, t) :: post }
        { s with properties := pre ++ (name, u) :: post }
  | items {t u : Schema} (s : Schema) (h : Renamed d t u) :
      Renamed d { s with items := some t } { s with items := some u }

/-- What a schema asks of a node itself, its type apart. -/
def untyped (s : Schema) : Schema := { s with type := none, properties := [], items := none }

/-- What depends only on what is asked of a node itself, the type apart, is the same if that is. -/
lemma eq_of_untyped {α : Type} (g : Schema → α) (hg : ∀ s : Schema, g s.untyped = g s)
    (h : s.untyped = t.untyped) : g s = g t := by
  rw [← hg s, h, hg]

/-- Two schemas are alike at the root but for the name of the type, and what is one step down in
them is related. -/
structure Renames (d : Dialect) (S : Schema → Schema → Prop) (s t : Schema) : Prop where
  type : Synonym d s.type t.type
  untyped : s.untyped = t.untyped
  under : ∀ a, Option.Rel S (s.under? a) (t.under? a)

lemma renames_of_under? (type : Synonym d s.type t.type) (untyped : s.untyped = t.untyped)
    (under : ∀ a, s.under? a = t.under? a) : Renames d (Renamed d) s t :=
  ⟨type, untyped, fun a => under a ▸ rel_refl .refl _⟩

/-- Schemas renamed are alike at the root, and what is one step down is renamed. -/
theorem Renamed.renames (h : Renamed d s t) : Renames d (Renamed d) s t := by
  induction h with
  | refl s => exact renames_of_under? (.refl _) rfl fun _ => rfl
  | trans _ _ ih ih' =>
    exact ⟨ih.type.trans ih'.type, ih.untyped.trans ih'.untyped,
      fun a => rel_trans .trans (ih.under a) (ih'.under a)⟩
  | type h => exact renames_of_under? h rfl fun a => by cases a <;> rfl
  | @property t u s name pre post h _ =>
    refine ⟨.refl _, rfl, fun a => ?_⟩
    cases a with
    | index i => exact rel_refl .refl s.items
    | key key =>
      rw [under?, under?, property?, property?]
      rcases Members.get?_exchange name key t u pre post with heq | ⟨ht, hu⟩
      · rw [heq]
        exact rel_refl .refl _
      · rw [ht, hu]
        exact .some h
  | @items t u s h _ =>
    refine ⟨.refl _, rfl, fun a => ?_⟩
    cases a with
    | key key => exact rel_refl .refl (s.property? key)
    | index i => exact .some h

end Schema

end Conform
