import Mathlib.Data.List.Forall2
import Mathlib.Data.Option.Defs
import Conform.Proofs.Validator.Descent

/-!
Two walks side by side. A relation between pairs of a node and its schema, in one walk and in the
other, leads from pair to pair: what is in the one node stands beside what is in the other, under
schemas that are related again. If the notices on two related nodes are related as soon as those on
what is in them are, then the notices of both walks are. What is said of a node itself depends on
what its schema asks of the content, and of the schemas below only on which of them declare tables.
-/

namespace Conform.Validator

open Notice

variable {e e' : Setup} {v w : Value} {s t : Schema} {p : Site}
  {Q : Value → Schema → Value → Schema → Prop} {R : List Notice → List Notice → Prop}

/-- What a schema asks of what is in a node, the schemas for that apart. -/
def constraints (s : Schema) : Schema :=
  { s with type := none, properties := [], items := none, malformed := [] }

/-- What depends only on what is asked of the content is the same if that is. -/
lemma eq_of_constraints {α : Type} (g : Schema → α) (hg : ∀ s, g (constraints s) = g s)
    (h : constraints s = constraints t) : g s = g t := by
  rw [← hg s, h, hg]

lemma missingFinding_congr {d : Dialect} {path name : String} {S : Schema → Schema → Prop}
    (hS : ∀ {u w}, S u w → u.declaresTable = w.declaresTable)
    (h : Option.Rel S (s.property? name) (t.property? name)) :
    missingFinding d s path name = missingFinding d t path name := by
  unfold missingFinding
  generalize s.property? name = o at h ⊢
  generalize t.property? name = o' at h ⊢
  cases h with
  | none => rfl
  | some h => simp only [hS h]

lemma contentNotices_congr {d : Dialect} {path : String} (h : constraints s = constraints t)
    (missing : ∀ name, missingFinding d s path name = missingFinding d t path name) :
    contentNotices d s path v = contentNotices d t path v := by
  cases v with
  | object ms =>
    have hrequired : s.required = t.required := eq_of_constraints Schema.required (fun _ => rfl) h
    refine congrArg Notice.ofFindings ?_
    rw [missingFindings, missingFindings, hrequired]
    exact List.map_congr_left fun name _ => missing name
  | array vs =>
    exact eq_of_constraints (fun s => ofFindings (sizeFindings s path vs.length)) (fun _ => rfl) h
  | string text => exact eq_of_constraints (fun s => textNotices s path text _) (fun _ => rfl) h
  | temporal k text => exact eq_of_constraints (fun s => textNotices s path text _) (fun _ => rfl) h
  | number k n => exact eq_of_constraints (fun s => numberNotices s path n) (fun _ => rfl) h
  | boolean | null => rfl

lemma strayFindings_congr {path : String} {a : Step} (h : constraints s = constraints t) :
    strayFindings s path a = strayFindings t path a := by
  cases a with
  | key key => exact eq_of_constraints (undeclaredFindings · path key) (fun _ => rfl) h
  | index i => rfl

lemma enumFindings_congr {path : String} (h : constraints s = constraints t) :
    enumFindings s path v = enumFindings t path v :=
  eq_of_constraints (enumFindings · path v) (fun _ => rfl) h

/-! ### Walks -/

/-- What is one step down in two nodes: the step is the same, and either there is a schema for it on
neither side, or what is there is related. -/
structure Beside (Q : Value → Schema → Value → Schema → Prop)
    (R : List Notice → List Notice → Prop) (s t : Schema) (c c' : Step × Value) : Prop where
  step : c.1 = c'.1
  stray : ∀ path, R (ofFindings (strayFindings s path c.1)) (ofFindings (strayFindings t path c.1))
  under : Option.Rel (fun s' t' => Q c.2 s' c'.2 t') (s.under? c.1) (t.under? c.1)

lemma Beside.of_same {c c' : Step × Value} (step : c.1 = c'.1) (refl : ∀ ns, R ns ns)
    (below : ∀ u, s.under? c.1 = some u → Q c.2 u c'.2 u) : Beside Q R s s c c' := by
  refine ⟨step, fun path => refl _, ?_⟩
  cases hu : s.under? c.1 with
  | none => exact .none
  | some u => exact .some (below u hu)

/-- A relation between nodes with their schemas that the walks keep, and with it one between their
notices. -/
structure Simulation (e e' : Setup) (Q : Value → Schema → Value → Schema → Prop)
    (R : List Notice → List Notice → Prop) : Prop where
  nil : R [] []
  append : ∀ {ns ms ns' ms'}, R ns ms → R ns' ms' → R (ns ++ ns') (ms ++ ms')
  around : ∀ {v s w t} p {inside inside' : Unit → List Notice}, Q v s w t →
    R (inside ()) (inside' ()) → R (around e v s p inside) (around e' w t p inside')
  content : ∀ {v s w t} path, Q v s w t →
    R (contentNotices e.dialect s path v) (contentNotices e'.dialect t path w)
  children : ∀ {v s w t}, Q v s w t → List.Forall₂ (Beside Q R s t) v.children w.children

namespace Simulation

lemma flatMap (h : Simulation e e' Q R) {α : Type} {g g' : α → List Notice} {l l' : List α}
    (each : List.Forall₂ (fun x y => R (g x) (g' y)) l l') : R (l.flatMap g) (l'.flatMap g') := by
  induction each with
  | nil => exact h.nil
  | cons hx _ ih =>
    rw [List.flatMap_cons, List.flatMap_cons]
    exact h.append hx ih

lemma childNotices {c c' : Step × Value} (hc : Beside Q R s t c c')
    (below : ∀ s' t', Q c.2 s' c'.2 t' →
      R (walk e c.2 s' (p.down c.1)) (walk e' c'.2 t' (p.down c.1))) :
    R (childNotices e s p c) (childNotices e' t p c') := by
  obtain ⟨a, x⟩ := c
  obtain ⟨b, y⟩ := c'
  obtain ⟨rfl, hstray, hunder⟩ := hc
  rw [Validator.childNotices, Validator.childNotices]
  simp only at hunder below ⊢
  cases hs : s.under? a <;> cases ht : t.under? a <;> rw [hs, ht] at hunder <;> cases hunder
  · exact hstray p.path
  · next s' t' hq => exact below s' t' hq

/-- **Simulation**: what is related at the roots has related notices. -/
theorem walk (h : Simulation e e' Q R) (hq : Q v s w t) : R (walk e v s p) (walk e' w t p) := by
  induction v using Value.children_induction generalizing s w t p with
  | node v ih =>
    rw [walk_eq, walk_eq]
    refine h.around p hq (h.append (h.content p.path hq) (h.flatMap ?_))
    have hboth := (List.forall₂_and_left _ _).mpr ⟨ih, h.children hq⟩
    exact hboth.imp fun c c' ⟨hbelow, hc⟩ => childNotices hc fun s' t' => hbelow

end Simulation

end Conform.Validator
