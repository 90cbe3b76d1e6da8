import Conform.Proofs.Value.Nodes
import Conform.Value.OfToml

/-!
The data of a document. The tree of a decoded JSON text holds all that was decoded, and a tree is
one of these if all its nodes are of the six kinds that JSON has. The tree of a TOML value holds its
data too, except that dates and times are kept in their written form; its numbers are integers or
floats, and nothing in it is null.
-/

namespace Conform

variable {v w : Value} {j : Json} {i : Toml.Item}

namespace Value

mutual

lemma toJson_ofJson : ∀ j : Json, (ofJson j).toJson = j
  | .null | .bool _ | .number _ | .string _ => rfl
  | .array js => congrArg Json.array (toItems_ofItems js)
  | .object ms => congrArg Json.object (toMembers_ofMembers ms)

lemma toItems_ofItems : ∀ js : List Json, toItems (ofItems js) = js
  | [] => rfl
  | j :: r => by rw [ofItems, toItems, toJson_ofJson j, toItems_ofItems r]

lemma toMembers_ofMembers : ∀ ms : List (String × Json), toMembers (ofMembers ms) = ms
  | [] => rfl
  | (k, j) :: r => by rw [ofMembers, toMembers, toJson_ofJson j, toMembers_ofMembers r]

end

inductive IsJson : Value → Prop where
  | object (ms : List (String × Value)) : IsJson (.object ms)
  | array (vs : List Value) : IsJson (.array vs)
  | string (s : String) : IsJson (.string s)
  | number (n : Number) : IsJson (.number .number n)
  | boolean (b : Bool) : IsJson (.boolean b)
  | null : IsJson .null

lemma isJson_ofJson (j : Json) : (ofJson j).IsJson := by
  cases j <;> constructor

/-- All that is in the tree of a decoded text is itself such a tree. -/
lemma children_ofJson {c : Step × Value} (h : c ∈ (ofJson j).children) : ∃ k, c.2 = ofJson k := by
  cases j with
  | array js =>
    rw [ofJson, ofItems_eq_map] at h
    obtain ⟨i, hi, rfl⟩ := List.mem_mapIdx.mp h
    exact ⟨_, List.getElem_map ofJson⟩
  | object ms =>
    rw [ofJson, ofMembers_eq_map] at h
    obtain ⟨m, hm, rfl⟩ := List.mem_map.mp h
    obtain ⟨n, -, rfl⟩ := List.mem_map.mp hm
    exact ⟨n.2, rfl⟩
  | null | bool | number | string => cases h

lemma everywhere_isJson_ofJson (j : Json) : (ofJson j).Everywhere IsJson :=
  .of_image isJson_ofJson (fun _ _ => children_ofJson) j

lemma toItems_eq_map (vs : List Value) : toItems vs = vs.map toJson := by
  induction vs with
  | nil => rfl
  | cons v r ih => rw [toItems, ih, List.map_cons]

lemma toMembers_eq_map (ms : List (String × Value)) :
    toMembers ms = ms.map fun m => (m.1, m.2.toJson) := by
  induction ms with
  | nil => rfl
  | cons m r ih => rw [toMembers, ih, List.map_cons]

/-- A tree of nodes that JSON has is the tree of its own data. -/
lemma ofJson_toJson (h : v.Everywhere IsJson) : ofJson v.toJson = v := by
  induction v using Value.induction with
  | object ms ih =>
    have hms : (ms.map fun m => (m.1, ofJson m.2.toJson)) = ms :=
      List.map_congr_left (fun m hm => congrArg (Prod.mk m.1) (ih m hm (h.member hm)))
        |>.trans (List.map_id' ms)
    rw [toJson, ofJson, ofMembers_eq_map, toMembers_eq_map, List.map_map]
    exact congrArg object hms
  | array vs ih =>
    have hvs : (vs.map fun x => ofJson x.toJson) = vs :=
      List.map_congr_left (fun x hx => ih x hx (h.item hx)) |>.trans (List.map_id' vs)
    rw [toJson, ofJson, ofItems_eq_map, toItems_eq_map, List.map_map]
    exact congrArg array hvs
  | string s => rfl
  | number k n =>
    cases h.here with
    | number => rfl
  | boolean b => rfl
  | null => rfl
  | temporal k s => cases h.here

/-- The trees that their data give again are those of nodes that JSON has. -/
lemma everywhere_isJson_iff : v.Everywhere IsJson ↔ ofJson v.toJson = v := by
  constructor
  · exact ofJson_toJson
  · intro h
    rw [← h]
    exact everywhere_isJson_ofJson _

end Value

/-! ### TOML -/

namespace Toml.Item

mutual

/-- The data of a TOML value: each date and time is the text that it is written as, and all else is
itself. -/
def data : Item → Json
  | .bool b => .bool b
  | .int n => .number (.int n)
  | .float x => .number (.double x)
  | .string s => .string s
  | .dateTime t => .string t.text
  | .date d => .string d.text
  | .time t => .string t.text
  | .array is => .array (dataOfItems is)
  | .table ms => .object (dataOfMembers ms)

def dataOfItems : List Item → List Json
  | [] => []
  | i :: r => data i :: dataOfItems r

def dataOfMembers : List (String × Item) → List (String × Json)
  | [] => []
  | (k, i) :: r => (k, data i) :: dataOfMembers r

end

end Toml.Item

namespace Value

open Toml

mutual

lemma toJson_ofToml : ∀ i : Item, (ofToml i).toJson = i.data
  | .bool _ | .int _ | .float _ | .string _ | .dateTime _ | .date _ | .time _ => rfl
  | .array is => congrArg Json.array (toItems_ofTomlItems is)
  | .table ms => congrArg Json.object (toMembers_ofTomlMembers ms)

lemma toItems_ofTomlItems : ∀ is : List Item, toItems (ofTomlItems is) = Item.dataOfItems is
  | [] => rfl
  | i :: r => by
    rw [ofTomlItems, toItems, toJson_ofToml i, toItems_ofTomlItems r, Item.dataOfItems]

lemma toMembers_ofTomlMembers :
    ∀ ms : List (String × Item), toMembers (ofTomlMembers ms) = Item.dataOfMembers ms
  | [] => rfl
  | (k, i) :: r => by
    rw [ofTomlMembers, toMembers, toJson_ofToml i, toMembers_ofTomlMembers r, Item.dataOfMembers]

end

/-- A node of one of the kinds that TOML has, with the data of its kind: an integer or a float, and
no number that is just that. -/
inductive IsToml : Value → Prop where
  | object (ms : List (String × Value)) : IsToml (.object ms)
  | array (vs : List Value) : IsToml (.array vs)
  | string (s : String) : IsToml (.string s)
  | integer (n : Int) : IsToml (.number .integer (.int n))
  | float (x : Binary64) : IsToml (.number .float (.double x))
  | boolean (b : Bool) : IsToml (.boolean b)
  | temporal (k : TemporalKind) (s : String) : IsToml (.temporal k s)

lemma isToml_ofToml (i : Item) : (ofToml i).IsToml := by
  cases i <;> constructor

lemma IsToml.kind_ne (h : v.IsToml) : v.kind ≠ .numeric .number ∧ v.kind ≠ .null := by
  cases h <;> simp [kind]

lemma ofTomlItems_eq_map (is : List Item) : ofTomlItems is = is.map ofToml := by
  induction is with
  | nil => rfl
  | cons i r ih => rw [ofTomlItems, ih, List.map_cons]

lemma ofTomlMembers_eq_map (ms : List (String × Item)) :
    ofTomlMembers ms = ms.map fun m => (m.1, ofToml m.2) := by
  induction ms with
  | nil => rfl
  | cons m r ih => rw [ofTomlMembers, ih, List.map_cons]

/-- All that is in the tree of a TOML value is itself such a tree. -/
lemma children_ofToml {c : Step × Value} (h : c ∈ (ofToml i).children) :
    ∃ k, c.2 = ofToml k := by
  cases i with
  | array is =>
    rw [ofToml, ofTomlItems_eq_map] at h
    obtain ⟨n, hn, rfl⟩ := List.mem_mapIdx.mp h
    exact ⟨_, List.getElem_map ofToml⟩
  | table ms =>
    rw [ofToml, ofTomlMembers_eq_map] at h
    obtain ⟨m, hm, rfl⟩ := List.mem_map.mp h
    obtain ⟨n, -, rfl⟩ := List.mem_map.mp hm
    exact ⟨n.2, rfl⟩
  | bool | int | float | string | dateTime | date | time => cases h

lemma everywhere_isToml_ofToml (i : Item) : (ofToml i).Everywhere IsToml :=
  .of_image isToml_ofToml (fun _ _ => children_ofToml) i

/-- **Nothing is lost**: the tree of a decoded JSON text gives back what was decoded, its nodes are
of the six kinds that JSON has, with the data of their kinds, and its data give the tree again; no
tree with other nodes is given again by its data. The tree of a TOML value gives back the data of
the value, with dates and times as they are written; its nodes are of the kinds that TOML has, with
the data of their kinds, and none of them is just a number or null. -/
theorem data_kept (j : Json) (v : Value) (i : Item) :
    (ofJson j).toJson = j ∧ (ofJson j).Everywhere IsJson ∧ ofJson (ofJson j).toJson = ofJson j ∧
      (v.Everywhere IsJson ↔ ofJson v.toJson = v) ∧
      (ofToml i).toJson = i.data ∧
      (ofToml i).Everywhere fun w => w.IsToml ∧ w.kind ≠ .numeric .number ∧ w.kind ≠ .null :=
  ⟨toJson_ofJson j, everywhere_isJson_ofJson j, congrArg ofJson (toJson_ofJson j),
    everywhere_isJson_iff, toJson_ofToml i,
    (everywhere_isToml_ofToml i).imp fun _ h => ⟨h, h.kind_ne⟩⟩

end Value

end Conform
