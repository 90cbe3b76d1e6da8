import Mathlib.Data.List.Perm.Subperm
import Conform.Proofs.Json.Numbers
import Conform.Proofs.Number.Order
import Conform.Proofs.Schema.Nodes
import Conform.Proofs.Value.Pairwise

/-!
Equality of JSON trees, as it is tested: one tree is read as a document and compared with the other,
which stays a literal. The test goes by the members of the first and looks them up in the second, so
it treats the two in different ways. On trees without repeated keys it agrees with a relation that
treats them alike, and from that it has what equality should have: it is symmetric and transitive,
the order of members does not matter, and only not-a-number keeps a tree from equalling itself.
-/

namespace Conform.Json

open Value (ofJson)

variable {a b c : Json} {js ks : List Json} {ms ns : List (String × Json)} {key : String}

/-- The first tree, as a document, equals the second as a literal. -/
def Same (a b : Json) : Prop := (ofJson a).equals b = true

instance : Decidable (Same a b) := inferInstanceAs (Decidable ((ofJson a).equals b = true))

/-- Two trees have the same leaves in the same places, numbers being compared by value. -/
inductive Alike : Json → Json → Prop where
  | null : Alike .null .null
  | bool (t : Bool) : Alike (.bool t) (.bool t)
  | number {m n : Number} (h : m.eqv n = true) : Alike (.number m) (.number n)
  | string (s : String) : Alike (.string s) (.string s)
  | array {js ks : List Json} (length : js.length = ks.length)
      (items : ∀ (i : Nat) j k, js[i]? = some j → ks[i]? = some k → Alike j k) :
      Alike (.array js) (.array ks)
  | object {ms ns : List (String × Json)}
      (keys : ∀ key, key ∈ Members.keys ms ↔ key ∈ Members.keys ns)
      (values : ∀ key j k, Members.get? ms key = some j → Members.get? ns key = some k → Alike j k) :
      Alike (.object ms) (.object ns)

lemma Alike.symm (h : Alike a b) : Alike b a := by
  induction h with
  | null => exact .null
  | bool t => exact .bool t
  | number h => exact .number (Number.eqv_symm h)
  | string s => exact .string s
  | array length _ ih => exact .array length.symm fun i j k hj hk => ih i k j hk hj
  | object keys _ ih =>
    exact .object (fun key => (keys key).symm) fun key j k hj hk => ih key k j hk hj

lemma Alike.trans (h : Alike a b) (h' : Alike b c) : Alike a c := by
  induction h generalizing c with
  | null | bool | string => exact h'
  | number h =>
    cases h' with
    | number h' => exact .number (Number.eqv_trans h h')
  | @array js ks length _ ih =>
    cases h' with
    | array length' items' =>
      refine .array (length.trans length') fun i j l hj hl => ?_
      obtain ⟨hi, -⟩ := List.getElem?_eq_some_iff.mp hj
      have hk : ks[i]? = some ks[i] := List.getElem?_eq_getElem (length ▸ hi)
      exact ih i j _ hj hk (items' i _ l hk hl)
  | object keys _ ih =>
    cases h' with
    | object keys' values' =>
      refine .object (fun key => (keys key).trans (keys' key)) fun key j l hj hl => ?_
      have hkey := (keys' key).mpr (Members.mem_keys_of_mem (Members.mem_of_get? hl))
      obtain ⟨k, hk⟩ := Members.exists_get?_iff.mpr hkey
      exact ih key j k hj hk (values' key k l hk hl)

/-! ### Containers -/

lemma alike_array : Alike (.array js) (.array ks) ↔ List.Forall₂ Alike js ks := by
  rw [List.forall₂_iff_get]
  constructor
  · intro h
    cases h with
    | array length items =>
      exact ⟨length, fun i hj hk =>
        items i _ _ (List.getElem?_eq_getElem hj) (List.getElem?_eq_getElem hk)⟩
  · rintro ⟨length, items⟩
    refine .array length fun i j k hj hk => ?_
    obtain ⟨hi, rfl⟩ := List.getElem?_eq_some_iff.mp hj
    obtain ⟨hi', rfl⟩ := List.getElem?_eq_some_iff.mp hk
    exact items i hi hi'

lemma same_array : Same (.array js) (.array ks) ↔ List.Forall₂ Same js ks := by
  rw [Same, ofJson, Value.ofItems_eq_map, Value.equals]
  induction js generalizing ks with
  | nil => cases ks <;> simp [Value.equalItems]
  | cons j js ih =>
    cases ks with
    | nil => simp [Value.equalItems]
    | cons k ks =>
      rw [List.map_cons, Value.equalItems, Bool.and_eq_true, ih, List.forall₂_cons, Same]

lemma equalMembers_eq_true : Value.equalMembers (ms.map fun m => (m.1, ofJson m.2)) ns = true ↔
    ∀ m ∈ ms, ∃ k, Members.get? ns m.1 = some k ∧ Same m.2 k := by
  induction ms with
  | nil => simp [Value.equalMembers]
  | cons m ms ih =>
    obtain ⟨key, j⟩ := m
    rw [List.map_cons, Value.equalMembers, Bool.and_eq_true, ih, List.forall_mem_cons]
    refine and_congr_left fun _ => ?_
    cases Members.get? ns key <;> simp [Same]

/-- Where no key is repeated, two objects are the same if they have the same keys and under each the
same. -/
lemma same_object (hm : (Members.keys ms).Nodup) (hn : (Members.keys ns).Nodup) :
    Same (.object ms) (.object ns) ↔
      (∀ key, key ∈ Members.keys ms ↔ key ∈ Members.keys ns) ∧
      ∀ key j k, Members.get? ms key = some j → Members.get? ns key = some k → Same j k := by
  rw [Same, ofJson, Value.ofMembers_eq_map, Value.equals, Bool.and_eq_true, equalMembers_eq_true,
    List.length_map, beq_iff_eq]
  constructor
  · rintro ⟨hlength, hmembers⟩
    have hsub : Members.keys ms ⊆ Members.keys ns := by
      intro key hkey
      obtain ⟨m, hm, rfl⟩ := List.mem_map.mp hkey
      obtain ⟨k, hk, -⟩ := hmembers m hm
      exact Members.exists_get?_iff.mp ⟨k, hk⟩
    have hperm : (Members.keys ms).Perm (Members.keys ns) :=
      (List.subperm_of_subset hm hsub).perm_of_length_le (by simp [Members.keys, hlength])
    refine ⟨fun key => hperm.mem_iff, fun key j k hj hk => ?_⟩
    obtain ⟨k', hk', hsame⟩ := hmembers (key, j) (Members.mem_of_get? hj)
    cases hk.symm.trans hk'
    exact hsame
  · rintro ⟨hkeys, hvalues⟩
    have hperm : (Members.keys ms).Perm (Members.keys ns) :=
      (List.perm_ext_iff_of_nodup hm hn).mpr hkeys
    refine ⟨by simpa [Members.keys] using hperm.length_eq, fun m hmem => ?_⟩
    obtain ⟨k, hk⟩ :=
      Members.exists_get?_iff.mpr ((hkeys m.1).mp (Members.mem_keys_of_mem hmem))
    exact ⟨k, hk, hvalues m.1 m.2 k (Members.get?_of_mem hm hmem) hk⟩

/-- Where no key is repeated, the test treats both trees alike. -/
theorem same_iff_alike (ha : a.KeysDistinct) (hb : b.KeysDistinct) : Same a b ↔ Alike a b := by
  induction ha generalizing b with
  | null =>
    cases b with
    | null => exact ⟨fun _ => .null, fun _ => rfl⟩
    | bool | number | string | array | object => exact iff_of_false (fun h => by cases h) fun h => by cases h
  | bool t =>
    cases b with
    | bool u =>
      rw [Same, ofJson, Value.equals, beq_iff_eq]
      exact ⟨fun h => h ▸ .bool t, fun h => by cases h; rfl⟩
    | null | number | string | array | object => exact iff_of_false (fun h => by cases h) fun h => by cases h
  | number m =>
    cases b with
    | number n => exact ⟨.number, fun h => by cases h; assumption⟩
    | null | bool | string | array | object => exact iff_of_false (fun h => by cases h) fun h => by cases h
  | string s =>
    cases b with
    | string t =>
      rw [Same, ofJson, Value.equals, beq_iff_eq]
      exact ⟨fun h => h ▸ .string s, fun h => by cases h; rfl⟩
    | null | bool | number | array | object => exact iff_of_false (fun h => by cases h) fun h => by cases h
  | @array js _ ih =>
    cases hb with
    | @array ks each =>
      rw [same_array, alike_array, List.forall₂_iff_zip, List.forall₂_iff_zip]
      refine and_congr_right fun _ => forall_congr' fun j => forall_congr' fun k => ?_
      refine imp_congr_right fun hjk => ?_
      exact ih j (List.of_mem_zip hjk).1 (each k (List.of_mem_zip hjk).2)
    | null | bool | number | string | object => exact iff_of_false (fun h => by cases h) fun h => by cases h
  | @object ms nodup _ ih =>
    cases hb with
    | @object ns nodup' each =>
      rw [same_object nodup nodup']
      have hvalues (key : String) (j k : Json) (hj : Members.get? ms key = some j)
          (hk : Members.get? ns key = some k) : Same j k ↔ Alike j k :=
        ih (key, j) (Members.mem_of_get? hj) (each (key, k) (Members.mem_of_get? hk))
      constructor
      · rintro ⟨hkeys, hsame⟩
        exact .object hkeys fun key j k hj hk =>
          (hvalues key j k hj hk).mp (hsame key j k hj hk)
      · intro h
        cases h with
        | object hkeys halike =>
          exact ⟨hkeys, fun key j k hj hk =>
            (hvalues key j k hj hk).mpr (halike key j k hj hk)⟩
    | null | bool | number | string | array => exact iff_of_false (fun h => by cases h) fun h => by cases h

/-! ### Reflexivity -/

/-- A tree is alike to itself exactly if it holds no not-a-number. -/
theorem alike_self_iff (ha : a.KeysDistinct) : Alike a a ↔ ¬Holds (.double .nan) a := by
  induction ha with
  | null => exact iff_of_true .null fun h => by cases h
  | bool t => exact iff_of_true (.bool t) fun h => by cases h
  | string s => exact iff_of_true (.string s) fun h => by cases h
  | number n =>
    constructor
    · rintro ⟨⟩ ⟨⟩
      exact Number.eqv_self.mp ‹_› rfl
    · intro h
      exact .number (Number.eqv_self.mpr fun hn => h (hn ▸ .number))
  | @array js _ ih =>
    rw [alike_array, List.forall₂_same]
    constructor
    · intro h hn
      cases hn with
      | item hj hn => exact (ih _ hj).mp (h _ hj) hn
    · exact fun h j hj => (ih j hj).mpr fun hn => h (.item hj hn)
  | @object ms nodup _ ih =>
    constructor
    · intro h hn
      cases h with
      | object _ values =>
        cases hn with
        | member hj hn =>
          have hkey := Members.get?_of_mem nodup hj
          exact (ih _ hj).mp (values _ _ _ hkey hkey) hn
    · refine fun h => .object (fun _ => Iff.rfl) fun key j k hj hk => ?_
      cases hj.symm.trans hk
      have hmem := Members.mem_of_get? hj
      exact (ih _ hmem).mpr fun hn => h (.member hmem hn)

/-! ### The order of members -/

/-- Members of objects have changed places, in the tree itself or anywhere in it. -/
inductive Shuffled : Json → Json → Prop where
  | refl (j : Json) : Shuffled j j
  | trans {j k l : Json} (h : Shuffled j k) (h' : Shuffled k l) : Shuffled j l
  | members {ms ns : List (String × Json)} (perm : ms.Perm ns) : Shuffled (.object ms) (.object ns)
  | member {j k : Json} (key : String) (pre post : List (String × Json)) (h : Shuffled j k) :
      Shuffled (.object (pre ++ (key, j) :: post)) (.object (pre ++ (key, k) :: post))
  | item {j k : Json} (pre post : List Json) (h : Shuffled j k) :
      Shuffled (.array (pre ++ j :: post)) (.array (pre ++ k :: post))

lemma getElem?_exchange (i : Nat) (j k : Json) (pre post : List Json) :
    (pre ++ j :: post)[i]? = (pre ++ k :: post)[i]? ∨
      (pre ++ j :: post)[i]? = some j ∧ (pre ++ k :: post)[i]? = some k := by
  induction pre generalizing i with
  | nil =>
    cases i with
    | zero => exact Or.inr ⟨rfl, rfl⟩
    | succ i => exact Or.inl rfl
  | cons x r ih =>
    cases i with
    | zero => exact Or.inl rfl
    | succ i => exact ih i

namespace Shuffled

lemma symm (h : Shuffled a b) : Shuffled b a := by
  induction h with
  | refl j => exact .refl j
  | trans _ _ ih ih' => exact ih'.trans ih
  | members perm => exact .members perm.symm
  | member key pre post _ ih => exact .member key pre post ih
  | item pre post _ ih => exact .item pre post ih

lemma keysDistinct (h : Shuffled a b) (ha : a.KeysDistinct) : b.KeysDistinct := by
  induction h with
  | refl => exact ha
  | trans _ _ ih ih' => exact ih' (ih ha)
  | members perm =>
    obtain ⟨nodup, each⟩ := keysDistinct_object.mp ha
    exact .object ((perm.map _).nodup_iff.mp nodup) fun m hm => each m (perm.mem_iff.mpr hm)
  | member key pre post _ ih =>
    rw [keysDistinct_object, List.forall_mem_append, List.forall_mem_cons] at ha ⊢
    obtain ⟨nodup, hpre, hj, hpost⟩ := ha
    exact ⟨by simpa [Members.keys] using nodup, hpre, ih hj, hpost⟩
  | item pre post _ ih =>
    rw [keysDistinct_array, List.forall_mem_append, List.forall_mem_cons] at ha ⊢
    obtain ⟨hpre, hj, hpost⟩ := ha
    exact ⟨hpre, ih hj, hpost⟩

lemma alike (h : Shuffled a c) (ha : a.KeysDistinct) (hab : Alike a b) : Alike c b := by
  induction h generalizing b with
  | refl => exact hab
  | trans h _ ih ih' => exact ih' (h.keysDistinct ha) (ih ha hab)
  | members perm =>
    cases hab with
    | object keys values =>
      refine .object (fun key => (perm.map _).mem_iff.symm.trans (keys key)) ?_
      intro key j k hj hk
      rw [← Members.get?_eq_of_perm (keysDistinct_object.mp ha).1 perm] at hj
      exact values key j k hj hk
  | @member j k key pre post _ ih =>
    have hj : j.KeysDistinct := ha.member (List.mem_append_right pre List.mem_cons_self)
    cases hab with
    | object keys values =>
      refine .object (fun l => ?_) fun l x y hx hy => ?_
      · rw [← keys l]
        simp [Members.keys]
      · rcases Members.get?_exchange key l j k pre post with heq | ⟨hl, hl'⟩
        · exact values l x y (heq.trans hx) hy
        · cases hl'.symm.trans hx
          exact ih hj (values l j y hl hy)
  | @item j k pre post _ ih =>
    have hj : j.KeysDistinct := keysDistinct_array.mp ha j (by simp)
    cases hab with
    | array length items =>
      refine .array (by simpa using length) fun i x y hx hy => ?_
      rcases getElem?_exchange i j k pre post with heq | ⟨hi, hi'⟩
      · exact items i x y (heq.trans hx) hy
      · cases hi'.symm.trans hx
        exact ih hj (items i j y hi hy)

lemma alike_iff (h : Shuffled a c) (ha : a.KeysDistinct) : Alike a b ↔ Alike c b :=
  ⟨h.alike ha, h.symm.alike (h.keysDistinct ha)⟩

end Shuffled

def AlikeDocuments (v w : Value) : Prop := ∃ j k, Alike j k ∧ v = ofJson j ∧ w = ofJson k

variable {v w x : Value} {step : Step} {steps : List Step}

lemma AlikeDocuments.kind (h : AlikeDocuments v w) : v.kind = w.kind := by
  obtain ⟨j, k, hjk, rfl, rfl⟩ := h
  cases hjk <;> rfl

lemma lookup_object (ms : List (String × Value)) :
    (Value.object ms).children.lookup step = some x ↔
      ∃ key, step = .key key ∧ Members.get? ms key = some x := by
  rw [Value.children]
  induction ms with
  | nil => simp
  | cons m r ih =>
    obtain ⟨key, v⟩ := m
    rw [List.map_cons, List.lookup_cons]
    by_cases h : step = .key key
    · simp [h, Members.get?]
    · rw [beq_false_of_ne h, ih]
      refine exists_congr fun key' => and_congr_right fun hstep => ?_
      rw [Members.get?, if_neg fun hkey => h (hstep.trans (congrArg Step.key hkey.symm))]

lemma lookup_of_stepWise {T : Value → Value → Prop} {cs ds : List (Step × Value)}
    (h : List.Forall₂ (Value.StepWise T) cs ds) (hx : cs.lookup step = some x) :
    ∃ y, ds.lookup step = some y ∧ T x y := by
  induction h with
  | nil => cases hx
  | @cons c d _ _ hcd _ ih =>
    obtain ⟨a, v⟩ := c
    obtain ⟨b, w⟩ := d
    obtain ⟨rfl, hvw⟩ : a = b ∧ T v w := hcd
    rw [List.lookup_cons] at hx
    rw [List.lookup_cons]
    cases hstep : step == a with
    | true =>
      rw [hstep] at hx
      cases hx
      exact ⟨w, rfl, hvw⟩
    | false =>
      rw [hstep] at hx
      exact ih hx

lemma AlikeDocuments.child (h : AlikeDocuments v w) (hx : v.children.lookup step = some x) :
    ∃ y, w.children.lookup step = some y ∧ AlikeDocuments x y := by
  obtain ⟨j, k, hjk, rfl, rfl⟩ := h
  cases hjk with
  | null | bool | number | string => cases hx
  | @array js ks length items =>
    have hitems : List.Forall₂ Alike js ks := alike_array.mp (.array length items)
    rw [ofJson, Value.ofItems_eq_map] at hx ⊢
    refine lookup_of_stepWise (Value.forall₂_children_array ?_) hx
    rw [List.forall₂_map_left_iff, List.forall₂_map_right_iff]
    exact hitems.imp fun j k hjk => ⟨j, k, hjk, rfl, rfl⟩
  | @object ms ns keys values =>
    rw [ofJson, Value.ofMembers_eq_map] at hx ⊢
    obtain ⟨key, rfl, hget⟩ := (lookup_object _).mp hx
    rw [Members.get?_map] at hget
    obtain ⟨j, hj, rfl⟩ := Option.map_eq_some_iff.mp hget
    have hkey := Members.exists_get?_iff.mp ⟨j, hj⟩
    obtain ⟨k, hk⟩ := Members.exists_get?_iff.mpr ((keys key).mp hkey)
    refine ⟨ofJson k, (lookup_object _).mpr ⟨key, rfl, ?_⟩, j, k, values key j k hj hk, rfl, rfl⟩
    rw [Members.get?_map, hk, Option.map_some]

lemma AlikeDocuments.at? (h : AlikeDocuments v w) (hx : v.at? steps = some x) :
    ∃ y, w.at? steps = some y ∧ AlikeDocuments x y := by
  induction steps generalizing v w with
  | nil =>
    cases hx
    exact ⟨w, rfl, h⟩
  | cons a steps ih =>
    obtain ⟨v', hv, hx⟩ := Option.bind_eq_some_iff.mp hx
    obtain ⟨w', hw, h'⟩ := h.child hv
    obtain ⟨y, hy, hxy⟩ := ih h' hx
    exact ⟨y, Option.bind_eq_some_iff.mpr ⟨w', hw, hy⟩, hxy⟩

/-! ### The laws -/

/-- **Equality of trees.** Among trees without repeated keys equality is symmetric and transitive, a
tree equals itself exactly if it holds no not-a-number, and members that change places anywhere in
either tree do not matter. Wherever the one of two equal trees has a node, the other has one of the
same kind, so a boolean never stands where there is a number. -/
theorem same_partialEquivalence (ha : a.KeysDistinct) (hb : b.KeysDistinct) (hc : c.KeysDistinct) :
    (Same a b → Same b a) ∧ (Same a b → Same b c → Same a c) ∧
      (Same a a ↔ ¬Holds (.double .nan) a) ∧
      (∀ a' b', Shuffled a a' → Shuffled b b' → (Same a' b' ↔ Same a b)) ∧
      (Same a b → ∀ steps x, (ofJson a).at? steps = some x →
        ∃ y, (ofJson b).at? steps = some y ∧ x.kind = y.kind) := by
  refine ⟨fun h => ?_, fun h h' => ?_, ?_, fun a' b' ha' hb' => ?_, fun h steps x hx => ?_⟩
  · rw [same_iff_alike hb ha]
    exact ((same_iff_alike ha hb).mp h).symm
  · rw [same_iff_alike ha hc]
    exact ((same_iff_alike ha hb).mp h).trans ((same_iff_alike hb hc).mp h')
  · rw [same_iff_alike ha ha]
    exact alike_self_iff ha
  · rw [same_iff_alike (ha'.keysDistinct ha) (hb'.keysDistinct hb), same_iff_alike ha hb,
      ← ha'.alike_iff ha]
    exact ⟨fun h => (hb'.alike_iff hb |>.mpr h.symm).symm,
      fun h => (hb'.alike_iff hb |>.mp h.symm).symm⟩
  · have hdocuments : AlikeDocuments (ofJson a) (ofJson b) :=
      ⟨a, b, (same_iff_alike ha hb).mp h, rfl, rfl⟩
    obtain ⟨y, hy, hxy⟩ := hdocuments.at? hx
    exact ⟨y, hy, hxy.kind⟩

/-- A member that is one as an integer and as a double, and members that change places two levels
down; true instead of the one is something else. -/
theorem same_partialEquivalence_one :
    let one : Binary64 := .finite false 0x10000000000000 (-52) (by decide)
    let tree (n : Json) (ms : List (String × Json)) : Json :=
      .object [("n", n), ("items", .array [.object ms, .null])]
    let a : Json := tree (.number (.int 1)) [("s", .string "x"), ("t", .bool true)]
    let b : Json := tree (.number (.double one)) [("s", .string "x"), ("t", .bool true)]
    let b' : Json := tree (.number (.double one)) [("t", .bool true), ("s", .string "x")]
    let c : Json := tree (.number (.int 1)) [("t", .bool true), ("s", .string "x")]
    a.KeysDistinct ∧ b.KeysDistinct ∧ c.KeysDistinct ∧ Shuffled b b' ∧
      Same a b ∧ Same b a ∧ Same b c ∧ Same a c ∧ Same a b' ∧ Same a a ∧
      ¬Holds (.double .nan) a ∧ (ofJson a).at? [.key "n"] = some (.number .number (.int 1)) ∧
      (∃ y, (ofJson b).at? [.key "n"] = some y ∧ y.kind = .numeric .number) ∧
      ¬Same (tree (.bool true) []) (tree (.number (.int 1)) []) := by
  intro one tree a b b' c
  have ha : a.KeysDistinct := by simp [a, tree, Members.keys]
  have hb : b.KeysDistinct := by simp [b, tree, Members.keys]
  have hc : c.KeysDistinct := by simp [c, tree, Members.keys]
  have hshuffled : Shuffled b b' :=
    .member "items" [_] [] (.item [] [_] (.members (.swap _ _ _)))
  have hab : Same a b := by decide +kernel
  have hbc : Same b c := by decide +kernel
  have hn : (ofJson a).at? [.key "n"] = some (.number .number (.int 1)) := rfl
  obtain ⟨hsymm, htrans, hself, horder, hkind⟩ := same_partialEquivalence ha hb hc
  obtain ⟨y, hy, hxy⟩ := hkind hab _ _ hn
  have haa : Same a a := by decide +kernel
  exact ⟨ha, hb, hc, hshuffled, hab, hsymm hab, hbc, htrans hab hbc,
    (horder a b' (.refl a) hshuffled).mpr hab, haa, hself.mp haa, hn, ⟨y, hy, hxy.symm⟩,
    by decide +kernel⟩

end Conform.Json
