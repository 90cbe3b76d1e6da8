import Conform.Proofs.Json.Numbers
import Conform.Schema

/-!
The nodes of a schema: the schema itself and, from node to node, the schemas of properties and
items. What holds of every node of a schema holds of every node of each schema below it.
-/

namespace Conform

namespace Json

inductive KeysDistinct : Json → Prop where
  | null : KeysDistinct .null
  | bool (b : Bool) : KeysDistinct (.bool b)
  | number (n : Number) : KeysDistinct (.number n)
  | string (s : String) : KeysDistinct (.string s)
  | array {items : List Json} (each : ∀ j ∈ items, KeysDistinct j) : KeysDistinct (.array items)
  | object {members : List (String × Json)} (nodup : (Members.keys members).Nodup)
      (each : ∀ m ∈ members, KeysDistinct m.2) : KeysDistinct (.object members)

attribute [simp] KeysDistinct.null KeysDistinct.bool KeysDistinct.number KeysDistinct.string

@[simp] lemma keysDistinct_array {items : List Json} :
    KeysDistinct (.array items) ↔ ∀ j ∈ items, KeysDistinct j :=
  ⟨fun h => by cases h; assumption, .array⟩

@[simp] lemma keysDistinct_object {ms : List (String × Json)} :
    KeysDistinct (.object ms) ↔ (Members.keys ms).Nodup ∧ ∀ m ∈ ms, KeysDistinct m.2 :=
  ⟨fun h => by cases h; exact ⟨‹_›, ‹_›⟩, fun h => .object h.1 h.2⟩

lemma KeysDistinct.member {ms : List (String × Json)} {key : String} {j : Json}
    (h : KeysDistinct (.object ms)) (hm : (key, j) ∈ ms) : KeysDistinct j :=
  (keysDistinct_object.mp h).2 _ hm

/-- No object of a text that is read has a key twice. -/
theorem keysDistinct_of_parse {text : List Char} {j : Json} (h : parse text = .ok j) :
    j.KeysDistinct := by
  refine forall_of_parse .null .bool (fun m _ => .number m) .string (fun _ => .array) ?_ h
  refine fun ps hps => .object (Members.nodup_keys_ofPairs ps) fun ⟨k, y⟩ hy => ?_
  obtain ⟨p, hp, rfl⟩ := Members.mem_ofPairs hy
  exact hps p hp

end Json

namespace Schema

variable {s t u : Schema} {P : Schema → Prop} {name : String}

inductive Node (s : Schema) : Schema → Prop where
  | self : Node s s
  | property {t u : Schema} {name : String} (h : Node s t) (mem : (name, u) ∈ t.properties) :
      Node s u
  | items {t u : Schema} (h : Node s t) (set : t.items = some u) : Node s u

lemma Node.trans (h : s.Node t) (h' : t.Node u) : s.Node u := by
  induction h' with
  | self => exact h
  | property _ hm ih => exact ih.property hm
  | items _ hi ih => exact ih.items hi

def Everywhere (P : Schema → Prop) (s : Schema) : Prop := ∀ t, s.Node t → P t

lemma Everywhere.here (h : s.Everywhere P) : P s := h s .self

lemma Everywhere.node (h : s.Everywhere P) (ht : s.Node t) : t.Everywhere P :=
  fun _ hu => h _ (ht.trans hu)

lemma Everywhere.property (h : s.Everywhere P) (hu : s.property? name = some u) :
    u.Everywhere P :=
  h.node (.property .self (Members.mem_of_get? hu))

lemma Everywhere.items (h : s.Everywhere P) (hu : s.items = some u) : u.Everywhere P :=
  h.node (.items .self hu)

lemma Node.self_or_below (h : s.Node t) :
    t = s ∨ (∃ m ∈ s.properties, m.2.Node t) ∨ ∃ u, s.items = some u ∧ u.Node t := by
  induction h with
  | self => exact Or.inl rfl
  | property _ hm ih =>
    rcases ih with rfl | ⟨m, hm', hn⟩ | ⟨u, hu, hn⟩
    · exact Or.inr (Or.inl ⟨_, hm, .self⟩)
    · exact Or.inr (Or.inl ⟨m, hm', hn.property hm⟩)
    · exact Or.inr (Or.inr ⟨u, hu, hn.property hm⟩)
  | items _ hi ih =>
    rcases ih with rfl | ⟨m, hm', hn⟩ | ⟨u, hu, hn⟩
    · exact Or.inr (Or.inr ⟨_, hi, .self⟩)
    · exact Or.inr (Or.inl ⟨m, hm', hn.items hi⟩)
    · exact Or.inr (Or.inr ⟨u, hu, hn.items hi⟩)

/-- What holds here, of every property and of the items holds everywhere. -/
lemma Everywhere.intro (here : P s) (properties : ∀ m ∈ s.properties, m.2.Everywhere P)
    (items : ∀ u ∈ s.items, u.Everywhere P) : s.Everywhere P := by
  intro t ht
  rcases ht.self_or_below with rfl | ⟨m, hm, hn⟩ | ⟨u, hu, hn⟩
  · exact here
  · exact properties m hm t hn
  · exact items u hu t hn

lemma Everywhere.leaf (here : P s) (properties : s.properties = []) (items : s.items = none) :
    s.Everywhere P :=
  .intro here (by simp [properties]) (by simp [items])

/-! ### The nodes of a schema that is read -/

lemma mem_ofMembers {ms : List (String × Json)} (h : (name, u) ∈ ofMembers ms) :
    ∃ j, (name, j) ∈ ms ∧ u = ofJson j := by
  induction ms with
  | nil => cases h
  | cons m r ih =>
    obtain ⟨k, j⟩ := m
    rw [ofMembers] at h
    rcases List.mem_cons.mp h with h | h
    · cases h
      exact ⟨j, List.mem_cons_self, rfl⟩
    · obtain ⟨j', hm, hu⟩ := ih h
      exact ⟨j', List.mem_cons_of_mem _ hm, hu⟩

lemma mem_propertiesIn {ms : List (String × Json)} (h : (name, u) ∈ propertiesIn ms) :
    ∃ key ps j, (key, .object ps) ∈ ms ∧ (name, j) ∈ ps ∧ u = ofJson j := by
  induction ms with
  | nil => cases h
  | cons m r ih =>
    obtain ⟨k, j⟩ := m
    unfold propertiesIn at h
    split at h
    · split at h
      · next ps =>
        obtain ⟨j', hm, hu⟩ := mem_ofMembers h
        exact ⟨k, ps, j', List.mem_cons_self, hm, hu⟩
      · cases h
    · obtain ⟨key, ps, j', hps, hm, hu⟩ := ih h
      exact ⟨key, ps, j', List.mem_cons_of_mem _ hps, hm, hu⟩

lemma itemsIn_eq_some {ms : List (String × Json)} (h : itemsIn ms = some u) :
    ∃ key j, (key, j) ∈ ms ∧ u = ofJson j := by
  induction ms with
  | nil => cases h
  | cons m r ih =>
    obtain ⟨k, j⟩ := m
    rw [itemsIn] at h
    split at h
    · split at h
      · cases h
        exact ⟨k, j, List.mem_cons_self, rfl⟩
      · cases h
    · obtain ⟨key, j', hm, hu⟩ := ih h
      exact ⟨key, j', List.mem_cons_of_mem _ hm, hu⟩

/-- A node of a schema that is read was itself read, from a part of the same text: what holds of an
object and with it of all that is in it holds of that part. -/
lemma Node.read_of {Q : Json → Prop}
    (member : ∀ {ms key k}, Q (.object ms) → (key, k) ∈ ms → Q k) {j : Json}
    (h : (ofJson j).Node t) (hj : Q j) : ∃ k, Q k ∧ t = ofJson k := by
  induction h with
  | self => exact ⟨j, hj, rfl⟩
  | property _ hm ih =>
    obtain ⟨k, hk, rfl⟩ := ih
    cases k with
    | object ms =>
      obtain ⟨key, ps, l, hps, hl, rfl⟩ := mem_propertiesIn hm
      exact ⟨l, member (member hk hps) hl, rfl⟩
    | null | bool | number | string | array => cases hm
  | items _ hi ih =>
    obtain ⟨k, hk, rfl⟩ := ih
    cases k with
    | object ms =>
      obtain ⟨key, l, hl, rfl⟩ := itemsIn_eq_some hi
      exact ⟨l, member hk hl, rfl⟩
    | null | bool | number | string | array => cases hi

/-- Under a text without repeated keys, so is the part that a node was read from. -/
lemma Node.read {j : Json} (h : (ofJson j).Node t) (hj : j.KeysDistinct) :
    ∃ k, k.KeysDistinct ∧ t = ofJson k :=
  h.read_of Json.KeysDistinct.member hj

lemma malformedIn_sublist (ms : List (String × Json)) :
    (malformedIn ms).Sublist (Members.keys ms) := by
  induction ms with
  | nil => exact List.Sublist.slnil
  | cons m r ih =>
    obtain ⟨k, j⟩ := m
    have hstep : malformedIn ((k, j) :: r) = malformedIn r ∨
        malformedIn ((k, j) :: r) = k :: malformedIn r := by
      simp only [malformedIn, List.filterMap_cons]
      cases Keyword.ofName? k with
      | none => exact Or.inl rfl
      | some w =>
        by_cases hf : w.fits j = true
        · exact Or.inl (by simp only [hf, if_true])
        · exact Or.inr (by simp only [hf, Bool.false_eq_true, if_false])
    rcases hstep with h | h <;> rw [h]
    · exact ih.cons _
    · exact ih.cons_cons _

/-- No node of a schema that is read has a malformed keyword twice. -/
lemma malformed_nodup {j : Json} (hj : j.KeysDistinct) :
    (ofJson j).Everywhere fun t => t.malformed.Nodup := by
  intro t ht
  obtain ⟨k, hk, rfl⟩ := ht.read hj
  cases hk with
  | object nodup _ => exact (malformedIn_sublist _).nodup nodup
  | null | bool | number | string | array => exact List.nodup_nil

end Schema

end Conform
