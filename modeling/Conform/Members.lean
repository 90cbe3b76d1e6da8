/-!
Members of objects: keys with values in the order in which the keys first appeared. A key that is
put again keeps its place and takes the new value.
-/

namespace Conform

/-- Keys with values, in order. -/
abbrev Members (α : Type) (κ : Type := String) := List (κ × α)

namespace Members

variable {α β κ : Type} [DecidableEq κ]

def get? : Members α κ → κ → Option α
  | [], _ => none
  | (k, v) :: r, key => if k = key then some v else get? r key

def put (key : κ) (value : α) : Members α κ → Members α κ
  | [] => [(key, value)]
  | (k, v) :: r => if k = key then (k, value) :: r else (k, v) :: put key value r

/-- The members in the order given; of a repeated key the first place and the last value. -/
def ofPairs (ps : List (κ × α)) : Members α κ :=
  ps.foldl (fun ms p => put p.1 p.2 ms) []

def erase (key : κ) (ms : Members α κ) : Members α κ := ms.filter fun m => m.1 != key

def keys (ms : Members α κ) : List κ := ms.map (·.1)

@[simp] theorem get?_nil (key : κ) : get? ([] : Members α κ) key = none := rfl

@[simp] theorem get?_put_self (key : κ) (value : α) (ms : Members α κ) :
    get? (put key value ms) key = some value := by
  induction ms with
  | nil => simp [put, get?]
  | cons m r ih =>
    obtain ⟨k, v⟩ := m
    by_cases h : k = key <;> simp [put, get?, h, ih]

@[simp] theorem get?_put_of_ne {key other : κ} (value : α) (ms : Members α κ) (h : key ≠ other) :
    get? (put key value ms) other = get? ms other := by
  induction ms with
  | nil => simp [put, get?, h]
  | cons m r ih =>
    obtain ⟨k, v⟩ := m
    by_cases hk : k = key
    · subst hk; simp [put, get?, h]
    · simp [put, get?, hk, ih]

@[simp] theorem get?_erase_self (key : κ) (ms : Members α κ) :
    get? (erase key ms) key = none := by
  induction ms with
  | nil => rfl
  | cons m r ih =>
    obtain ⟨k, v⟩ := m
    by_cases h : k = key
    · simpa [erase, h] using ih
    · simpa [erase, get?, h] using ih

@[simp] theorem get?_erase_of_ne {key other : κ} (ms : Members α κ) (h : key ≠ other) :
    get? (erase key ms) other = get? ms other := by
  induction ms with
  | nil => rfl
  | cons m r ih =>
    obtain ⟨k, v⟩ := m
    by_cases hk : k = key
    · subst hk; simpa [erase, get?, h] using ih
    · simp only [erase] at ih; simp [erase, get?, hk, ih]

theorem erase_of_get?_eq_none {key : κ} {ms : Members α κ} (h : get? ms key = none) :
    erase key ms = ms := by
  induction ms with
  | nil => rfl
  | cons m r ih =>
    obtain ⟨k, v⟩ := m
    by_cases hk : k = key
    · simp [get?, hk] at h
    · rw [get?, if_neg hk] at h
      simpa [erase, hk] using ih h

theorem get?_map (f : α → β) (key : κ) (ms : Members α κ) :
    get? (ms.map fun m => (m.1, f m.2)) key = (get? ms key).map f := by
  induction ms with
  | nil => rfl
  | cons m r ih =>
    obtain ⟨k, v⟩ := m
    by_cases h : k = key
    · simp [get?, h]
    · simp [get?, h, ih]

theorem get?_eq_none_iff {key : κ} {ms : Members α κ} : get? ms key = none ↔ key ∉ keys ms := by
  induction ms with
  | nil => simp [keys]
  | cons m r ih =>
    obtain ⟨k, v⟩ := m
    by_cases h : k = key
    · simp [get?, keys, h]
    · simp [get?, h, ih, keys, Ne.symm h]

theorem exists_get?_iff {key : κ} {ms : Members α κ} :
    (∃ v, get? ms key = some v) ↔ key ∈ keys ms := by
  rw [← Option.ne_none_iff_exists', ne_eq, get?_eq_none_iff, Classical.not_not]

theorem mem_of_get? {key : κ} {v : α} {ms : Members α κ} (h : get? ms key = some v) :
    (key, v) ∈ ms := by
  induction ms with
  | nil => cases h
  | cons m r ih =>
    obtain ⟨k, w⟩ := m
    rw [get?] at h
    split at h
    · next hk =>
      cases h
      rw [hk]
      exact List.mem_cons_self
    · exact List.mem_cons_of_mem _ (ih h)

omit [DecidableEq κ] in
theorem mem_keys_of_mem {key : κ} {v : α} {ms : Members α κ} (h : (key, v) ∈ ms) :
    key ∈ keys ms :=
  List.mem_map_of_mem h

/-- Where no key stands twice, a key has the value that it stands with. -/
theorem get?_of_mem {key : κ} {v : α} {ms : Members α κ} (hn : (keys ms).Nodup)
    (h : (key, v) ∈ ms) : get? ms key = some v := by
  induction ms with
  | nil => cases h
  | cons m r ih =>
    obtain ⟨k, w⟩ := m
    obtain ⟨hk, hr⟩ := List.nodup_cons.mp hn
    rcases List.mem_cons.mp h with h | h
    · cases h
      exact if_pos rfl
    · have hne : k ≠ key := fun hkey => hk (hkey ▸ mem_keys_of_mem h)
      rw [get?, if_neg hne]
      exact ih hr h

theorem get?_eq_of_perm {ms ns : Members α κ} (hn : (keys ms).Nodup) (h : ms.Perm ns)
    (key : κ) : get? ms key = get? ns key := by
  have hk : (keys ms).Perm (keys ns) := h.map _
  have hn' : (keys ns).Nodup := hk.nodup_iff.mp hn
  cases hm : get? ms key with
  | some v => exact (get?_of_mem hn' (h.mem_iff.mp (mem_of_get? hm))).symm
  | none =>
    exact (get?_eq_none_iff.mpr fun hkey => get?_eq_none_iff.mp hm (hk.mem_iff.mpr hkey)).symm

theorem get?_insert_of_ne {key other : κ} (v : α) (pre post : Members α κ) (h : key ≠ other) :
    get? (pre ++ (key, v) :: post) other = get? (pre ++ post) other := by
  induction pre with
  | nil => exact if_neg h
  | cons m r ih =>
    obtain ⟨k, w⟩ := m
    simp only [List.cons_append, get?, ih]

theorem get?_exchange_of_ne {key other : κ} (v w : α) (pre post : Members α κ)
    (h : key ≠ other) :
    get? (pre ++ (key, v) :: post) other = get? (pre ++ (key, w) :: post) other := by
  rw [get?_insert_of_ne v pre post h, get?_insert_of_ne w pre post h]

/-- A key has the value that it had, unless it is that of the value that is exchanged. -/
theorem get?_exchange (key other : κ) (v w : α) (pre post : Members α κ) :
    get? (pre ++ (key, v) :: post) other = get? (pre ++ (key, w) :: post) other ∨
      get? (pre ++ (key, v) :: post) other = some v ∧
        get? (pre ++ (key, w) :: post) other = some w := by
  induction pre with
  | nil =>
    by_cases h : key = other
    · exact Or.inr ⟨if_pos h, if_pos h⟩
    · exact Or.inl ((if_neg h).trans (if_neg h).symm)
  | cons m r ih =>
    obtain ⟨k, x⟩ := m
    by_cases h : k = other
    · exact Or.inl ((if_pos h).trans (if_pos h).symm)
    · simp only [List.cons_append, get?, if_neg h]
      exact ih

theorem put_of_notMem {key : κ} {value : α} {ms : Members α κ} (h : key ∉ keys ms) :
    put key value ms = ms ++ [(key, value)] := by
  induction ms with
  | nil => rfl
  | cons m r ih =>
    obtain ⟨k, v⟩ := m
    obtain ⟨hk, hr⟩ := not_or.mp fun hm => h (List.mem_cons.mpr hm)
    rw [put, if_neg (Ne.symm hk), ih hr, List.cons_append]

theorem mem_keys_put {key k : κ} {value : α} {ms : Members α κ} :
    k ∈ keys (put key value ms) ↔ k = key ∨ k ∈ keys ms := by
  induction ms with
  | nil => simp [put, keys]
  | cons m r ih =>
    obtain ⟨l, w⟩ := m
    by_cases hl : l = key
    · subst hl
      simp [put, keys]
    · simp only [put, if_neg hl, keys, List.map_cons, List.mem_cons] at ih ⊢
      rw [ih]
      exact or_left_comm

theorem nodup_keys_put {key : κ} {value : α} {ms : Members α κ} (h : (keys ms).Nodup) :
    (keys (put key value ms)).Nodup := by
  induction ms with
  | nil => simp [put, keys]
  | cons m r ih =>
    obtain ⟨l, w⟩ := m
    obtain ⟨hl, hr⟩ := List.nodup_cons.mp h
    by_cases hk : l = key
    · rw [put, if_pos hk]
      exact h
    · rw [put, if_neg hk]
      refine List.nodup_cons.mpr ⟨fun hm => ?_, ih hr⟩
      exact (mem_keys_put.mp hm).elim hk hl

theorem nodup_keys_foldl_put {ps : List (κ × α)} {ms : Members α κ} (h : (keys ms).Nodup) :
    (keys (ps.foldl (fun ms p => put p.1 p.2 ms) ms)).Nodup := by
  induction ps generalizing ms with
  | nil => exact h
  | cons p r ih => exact ih (nodup_keys_put h)

/-- No key stands twice, whatever pairs were given. -/
theorem nodup_keys_ofPairs (ps : List (κ × α)) : (keys (ofPairs ps)).Nodup :=
  nodup_keys_foldl_put List.nodup_nil

theorem mem_put {key k : κ} {x y : α} {ms : Members α κ} (h : (k, y) ∈ put key x ms) :
    y = x ∨ (k, y) ∈ ms := by
  induction ms with
  | nil =>
    cases h with
    | head => exact Or.inl rfl
    | tail _ h => cases h
  | cons p r ih =>
    obtain ⟨l, z⟩ := p
    rw [put] at h
    split at h
    · rcases List.mem_cons.mp h with h | h
      · exact Or.inl (Prod.mk.inj h).2
      · exact Or.inr (List.mem_cons_of_mem _ h)
    · rcases List.mem_cons.mp h with h | h
      · exact Or.inr (h ▸ List.mem_cons_self)
      · exact (ih h).imp_right (List.mem_cons_of_mem _)

theorem mem_foldl_put {k : κ} {y : α} {ps : List (κ × α)} {ms : Members α κ}
    (h : (k, y) ∈ ps.foldl (fun ms p => put p.1 p.2 ms) ms) :
    (∃ p ∈ ps, y = p.2) ∨ (k, y) ∈ ms := by
  induction ps generalizing ms with
  | nil => exact Or.inr h
  | cons p r ih =>
    rcases ih h with ⟨q, hq, hy⟩ | h
    · exact Or.inl ⟨q, List.mem_cons_of_mem _ hq, hy⟩
    · rcases mem_put h with rfl | h
      · exact Or.inl ⟨p, List.mem_cons_self, rfl⟩
      · exact Or.inr h

/-- The values of the members are values that were given. -/
theorem mem_ofPairs {k : κ} {y : α} {ps : List (κ × α)} (h : (k, y) ∈ ofPairs ps) :
    ∃ p ∈ ps, y = p.2 :=
  (mem_foldl_put h).resolve_right List.not_mem_nil

end Members

end Conform
