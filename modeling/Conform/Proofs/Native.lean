import Conform.Proofs.Value.Pairwise
import Conform.Value.OfToml

/-!
Trees of what both formats have: no null, no dates and no times. Such a tree can be read as JSON
and as TOML. The two documents have the same containers and texts; only their numbers say different
things of themselves, and they equal the same literals and are shown the same.
-/

namespace Conform

/-- A tree of what both formats have. -/
inductive Native where
  | bool (b : Bool)
  | int (n : Int)
  | float (x : Binary64)
  | string (s : String)
  | list (items : List Native)
  | dict (members : List (String × Native))
  deriving Inhabited

namespace Native

/-- What holds of a container as soon as it holds of all that is in it holds of every tree, if it
holds of those that contain nothing. -/
@[elab_as_elim]
theorem induction {motive : Native → Prop} (bool : ∀ b, motive (.bool b))
    (int : ∀ n, motive (.int n)) (float : ∀ x, motive (.float x))
    (string : ∀ s, motive (.string s))
    (list : ∀ ns : List Native, (∀ n ∈ ns, motive n) → motive (.list ns))
    (dict : ∀ ms : List (String × Native), (∀ m ∈ ms, motive m.2) → motive (.dict ms)) :
    ∀ n, motive n
  | .bool b => bool b
  | .int n => int n
  | .float x => float x
  | .string s => string s
  | .list ns => list ns fun n _ => induction bool int float string list dict n
  | .dict ms => dict ms fun m _ => induction bool int float string list dict m.2
  termination_by n => sizeOf n
  decreasing_by
    · have := List.sizeOf_lt_of_mem ‹n ∈ ns›
      simp only [Native.list.sizeOf_spec]
      omega
    · have := List.sizeOf_lt_of_mem ‹m ∈ ms›
      obtain ⟨k, n⟩ := m
      simp only [Prod.mk.sizeOf_spec, Native.dict.sizeOf_spec] at this ⊢
      omega

mutual

def toJson : Native → Json
  | .bool b => .bool b
  | .int n => .number (.int n)
  | .float x => .number (.double x)
  | .string s => .string s
  | .list ns => .array (toJsonItems ns)
  | .dict ms => .object (toJsonMembers ms)

def toJsonItems : List Native → List Json
  | [] => []
  | n :: r => toJson n :: toJsonItems r

def toJsonMembers : List (String × Native) → List (String × Json)
  | [] => []
  | (k, n) :: r => (k, toJson n) :: toJsonMembers r

end

mutual

def toItem : Native → Toml.Item
  | .bool b => .bool b
  | .int n => .int n
  | .float x => .float x
  | .string s => .string s
  | .list ns => .array (toItems ns)
  | .dict ms => .table (toItemMembers ms)

def toItems : List Native → List Toml.Item
  | [] => []
  | n :: r => toItem n :: toItems r

def toItemMembers : List (String × Native) → List (String × Toml.Item)
  | [] => []
  | (k, n) :: r => (k, toItem n) :: toItemMembers r

end

def asJson (n : Native) : Value := Value.ofJson n.toJson

def asToml (n : Native) : Value := Value.ofToml n.toItem

variable {ns : List Native} {ms : List (String × Native)}

@[simp] lemma asJson_bool (b : Bool) : (bool b).asJson = .boolean b := rfl

@[simp] lemma asToml_bool (b : Bool) : (bool b).asToml = .boolean b := rfl

@[simp] lemma asJson_int (i : Int) : (int i).asJson = .number .number (.int i) := rfl

@[simp] lemma asToml_int (i : Int) : (int i).asToml = .number .integer (.int i) := rfl

@[simp] lemma asJson_float (x : Binary64) : (float x).asJson = .number .number (.double x) := rfl

@[simp] lemma asToml_float (x : Binary64) : (float x).asToml = .number .float (.double x) := rfl

@[simp] lemma asJson_string (s : String) : (string s).asJson = .string s := rfl

@[simp] lemma asToml_string (s : String) : (string s).asToml = .string s := rfl

@[simp] lemma asJson_list : (list ns).asJson = .array (ns.map asJson) := by
  have hitems : Value.ofItems (toJsonItems ns) = ns.map asJson := by
    induction ns with
    | nil => rfl
    | cons n r ih => rw [toJsonItems, Value.ofItems, ih, List.map_cons, asJson]
  rw [asJson, toJson, Value.ofJson, hitems]

@[simp] lemma asToml_list : (list ns).asToml = .array (ns.map asToml) := by
  have hitems : Value.ofTomlItems (toItems ns) = ns.map asToml := by
    induction ns with
    | nil => rfl
    | cons n r ih => rw [toItems, Value.ofTomlItems, ih, List.map_cons, asToml]
  rw [asToml, toItem, Value.ofToml, hitems]

@[simp] lemma asJson_dict : (dict ms).asJson = .object (ms.map fun m => (m.1, m.2.asJson)) := by
  have hmembers : Value.ofMembers (toJsonMembers ms) = ms.map fun m => (m.1, m.2.asJson) := by
    induction ms with
    | nil => rfl
    | cons m r ih => rw [toJsonMembers, Value.ofMembers, ih, List.map_cons, asJson]
  rw [asJson, toJson, Value.ofJson, hmembers]

@[simp] lemma asToml_dict : (dict ms).asToml = .object (ms.map fun m => (m.1, m.2.asToml)) := by
  have hmembers : Value.ofTomlMembers (toItemMembers ms) = ms.map fun m => (m.1, m.2.asToml) := by
    induction ms with
    | nil => rfl
    | cons m r ih => rw [toItemMembers, Value.ofTomlMembers, ih, List.map_cons, asToml]
  rw [asToml, toItem, Value.ofToml, hmembers]

lemma asJson_ne_null (n : Native) : n.asJson ≠ .null := by
  cases n <;> simp

lemma asToml_ne_null (n : Native) : n.asToml ≠ .null := by
  cases n <;> simp

/-! ### What the two documents have in common -/

/-- One step down, both documents are again one tree. -/
lemma children_asJson (n : Native) :
    List.Forall₂ (Value.StepWise fun v w => ∃ n : Native, v = n.asJson ∧ w = n.asToml)
      n.asJson.children n.asToml.children := by
  cases n with
  | list ns =>
    rw [asJson_list, asToml_list]
    refine Value.forall₂_children_array ?_
    rw [List.forall₂_map_left_iff, List.forall₂_map_right_iff]
    exact List.forall₂_same.mpr fun n _ => ⟨n, rfl, rfl⟩
  | dict ms =>
    rw [asJson_dict, asToml_dict]
    refine Value.forall₂_children_object ?_
    rw [List.forall₂_map_left_iff, List.forall₂_map_right_iff]
    exact List.forall₂_same.mpr fun m _ => ⟨rfl, m.2, rfl, rfl⟩
  | bool | int | float | string => exact .nil

lemma display_asJson (n : Native) (limit : Int) :
    n.asJson.display limit = n.asToml.display limit := by
  cases n <;> simp [Value.display]

theorem equals_asJson (n : Native) (j : Json) : n.asJson.equals j = n.asToml.equals j := by
  induction n using Native.induction generalizing j with
  | bool b => rfl
  | string s => rfl
  | int i => cases j <;> simp [Value.equals]
  | float x => cases j <;> simp [Value.equals]
  | list ns ih =>
    rw [asJson_list, asToml_list]
    refine Value.sameLiterals_array ?_ j
    rw [List.forall₂_map_left_iff, List.forall₂_map_right_iff]
    exact List.forall₂_same.mpr ih
  | dict ms ih =>
    rw [asJson_dict, asToml_dict]
    refine Value.sameLiterals_object ?_ j
    rw [List.forall₂_map_left_iff, List.forall₂_map_right_iff]
    exact List.forall₂_same.mpr fun m hm => ⟨rfl, ih m hm⟩

end Native

end Conform
