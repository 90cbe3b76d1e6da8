import Conform.Proofs.Validator.Below
import Conform.Proofs.Validator.Findings

/-!
The order of findings. At every node of a document the findings on the node itself and on members
that it lacks come first, then those on what is in it, child by child, and the finding that the node
is not listed comes last. The walk keeps this order at the node that it begins with; at a node below
it the findings there are those of the walk of that node, and all others are located elsewhere.
-/

namespace Conform.Validator

open Notice

variable {d : Dialect} {e : Setup} {v x : Value} {s t : Schema} {p q : Site} {f : Finding}
  {fs gs : List Finding} {path : String} {steps : List Step} {P Q A : Finding → Prop}

def Precede (fs : List Finding) (P Q : Finding → Prop) : Prop :=
  ∀ (i j : Nat) (f g : Finding), fs[i]? = some f → fs[j]? = some g → P f → Q g → i < j

lemma precede_iff :
    Precede fs P Q ↔ (∀ f ∈ fs, P f → ¬Q f) ∧ fs.Pairwise fun f g => Q f → ¬P g := by
  constructor
  · refine fun h => ⟨fun f hf hP hQ => ?_, List.pairwise_iff_getElem.mpr ?_⟩
    · obtain ⟨i, hi⟩ := List.getElem?_of_mem hf
      exact Nat.lt_irrefl i (h i i f f hi hi hP hQ)
    · intro i j hi hj hij hQ hP
      have := h j i _ _ (List.getElem?_eq_getElem hj) (List.getElem?_eq_getElem hi) hP hQ
      omega
  · rintro ⟨hne, hpair⟩ i j f g hi hj hP hQ
    by_contra hij
    obtain ⟨hi', rfl⟩ := List.getElem?_eq_some_iff.mp hi
    obtain ⟨hj', rfl⟩ := List.getElem?_eq_some_iff.mp hj
    rcases Nat.lt_or_ge j i with hlt | hge
    · exact List.pairwise_iff_getElem.mp hpair j i hj' hi' hlt hQ hP
    · obtain rfl : i = j := by omega
      exact hne _ (List.getElem_mem hi') hP hQ

lemma precede_of_none_first (h : ∀ f ∈ fs, ¬P f) : Precede fs P Q :=
  fun _ _ f _ hi _ hP _ => absurd hP (h f (List.mem_of_getElem? hi))

lemma precede_of_none_second (h : ∀ f ∈ fs, ¬Q f) : Precede fs P Q :=
  fun _ _ _ g _ hj _ hQ => absurd hQ (h g (List.mem_of_getElem? hj))

lemma precede_append : Precede (fs ++ gs) P Q ↔
    Precede fs P Q ∧ Precede gs P Q ∧ ∀ f ∈ fs, Q f → ∀ g ∈ gs, ¬P g := by
  simp only [precede_iff, List.pairwise_append, List.forall_mem_append]
  constructor
  · rintro ⟨⟨hf, hg⟩, hpf, hpg, hfg⟩
    exact ⟨⟨hf, hpf⟩, ⟨hg, hpg⟩, fun f hmf hQ g hmg => hfg f hmf g hmg hQ⟩
  · rintro ⟨⟨hf, hpf⟩, ⟨hg, hpg⟩, hfg⟩
    exact ⟨⟨hf, hg⟩, hpf, hpg, fun f hmf g hmg hQ => hfg f hmf hQ g hmg⟩

lemma Precede.append (hf : ∀ f ∈ fs, ¬Q f) (hg : ∀ g ∈ gs, ¬P g) : Precede (fs ++ gs) P Q :=
  precede_append.mpr ⟨precede_of_none_second hf, precede_of_none_first hg,
    fun f hm hQ => absurd hQ (hf f hm)⟩

/-- Findings that are located elsewhere do not matter for the order of those that are not. -/
lemma Precede.of_foundBelow (hP : ∀ f, P f → AtOrBelow path f) (hQ : ∀ f, Q f → AtOrBelow path f)
    (h : Precede (foundBelow path fs) P Q) : Precede fs P Q := by
  obtain ⟨hne, hpair⟩ := precede_iff.mp h
  rw [foundBelow, Finding.select, List.pairwise_filter] at hpair
  refine precede_iff.mpr ⟨fun f hf hPf => hne f (mem_foundBelow.mpr ⟨hf, hP f hPf⟩) hPf, ?_⟩
  refine hpair.imp fun {f g} hfg hQf hPg => ?_
  exact hfg (by simpa using hQ f hQf) (by simpa using hP g hPg) hQf hPg

/-! ### The order at a node -/

def Unlisted (f : Finding) : Prop := f.kind = .invalidValue ∧ Opens "Value must be one of: " f

/-- The findings on a node and on what is in it stand in document order. -/
structure InOrder (v : Value) (path : String) (fs : List Finding) : Prop where
  children : v.children.Pairwise fun c d => Precede fs (Beyond path c.1) (Beyond path d.1)
  own : ∀ c ∈ v.children, Precede fs (fun f => f.path = path ∧ ¬Unlisted f) (Beyond path c.1)
  missing : ∀ c ∈ v.children, Precede fs (OnMissing v path) (Beyond path c.1)
  listed : Precede fs
    (fun f => (f.path = path ∧ ¬Unlisted f) ∨ OnMissing v path f ∨
      ∃ c ∈ v.children, Beyond path c.1 f)
    (fun f => f.path = path ∧ Unlisted f)

lemma OnMissing.beyond (h : OnMissing v path f) : ∃ name, Beyond path (.key name) f := by
  obtain ⟨name, -, hf⟩ := h
  exact ⟨name, atOrBelow_of_eq hf⟩

lemma OnMissing.path_ne (h : OnMissing v path f) : f.path ≠ path := by
  obtain ⟨name, hb⟩ := h.beyond
  exact hb.path_ne

lemma Beyond.atOrBelow {a : Step} (h : Beyond path a f) : AtOrBelow path f := by
  have hf : AtOrBelow ([a].foldl Path.down path) f := h
  exact hf.of_foldl

/-- The order of what is found there or below is that of the whole. -/
lemma InOrder.of_foundBelow (h : InOrder v path (foundBelow path fs)) : InOrder v path fs := by
  have own : ∀ f, f.path = path ∧ ¬Unlisted f → AtOrBelow path f := fun f hf => atOrBelow_of_eq hf.1
  have missing : ∀ f, OnMissing v path f → AtOrBelow path f := fun f hf => by
    obtain ⟨name, hb⟩ := hf.beyond
    exact hb.atOrBelow
  have child : ∀ a f, Beyond path a f → AtOrBelow path f := fun a f hf => hf.atOrBelow
  refine ⟨h.children.imp fun hcd => hcd.of_foundBelow (child _) (child _),
    fun c hc => (h.own c hc).of_foundBelow own (child _),
    fun c hc => (h.missing c hc).of_foundBelow missing (child _),
    h.listed.of_foundBelow ?_ fun f hf => atOrBelow_of_eq hf.1⟩
  rintro f (hf | hf | ⟨c, -, hf⟩)
  · exact own f hf
  · exact missing f hf
  · exact hf.atOrBelow

lemma InOrder.of_own (h : ∀ f ∈ fs, f.path = path ∧ ¬Unlisted f) : InOrder v path fs := by
  have child : ∀ a, ∀ f ∈ fs, ¬Beyond path a f := fun a f hf hb => hb.path_ne (h f hf).1
  refine ⟨?_, fun c _ => precede_of_none_second (child c.1),
    fun c _ => precede_of_none_second (child c.1),
    precede_of_none_second fun f hf hl => (h f hf).2 hl.2⟩
  exact List.pairwise_of_forall fun c d => precede_of_none_second (child d.1)

/-! ### The parts of a walk -/

lemma EntryViolation.not_unlisted (h : EntryViolation e v s p f) : ¬Unlisted f := by
  rintro ⟨hk, -⟩
  cases h with
  | wrongType =>
    unfold Finding.invalidType at hk
    split at hk <;> cases hk
  | noSchema | tooDeep | malformed | unknownType | wrongForm => cases hk

lemma not_unlisted_of_mem_contentNotices (h : .ok f ∈ contentNotices d s path v) :
    ¬Unlisted f := by
  cases v with
  | object ms =>
    obtain ⟨name, -, -, rfl⟩ := mem_missingFindings.mp (ok_mem_ofFindings.mp h)
    rintro ⟨hk, -⟩
    unfold missingFinding at hk
    split at hk
    · split at hk <;> cases hk
    · cases hk
  | array vs =>
    exact fun hl => speaks_sizeFindings.not_opens (by decide +kernel) (ok_mem_ofFindings.mp h) hl.2
  | string | temporal =>
    exact fun hl => speaks_textNotices.not_opens (by decide +kernel) (mem_findings.mpr h) hl.2
  | number =>
    exact fun hl => speaks_numberNotices.not_opens (by decide +kernel) (mem_findings.mpr h) hl.2
  | boolean | null => cases h

lemma unlisted_of_mem_enumFindings (h : f ∈ enumFindings s path v) : Unlisted f := by
  obtain ⟨js, -, -, rfl⟩ := mem_enumFindings.mp h
  exact ⟨rfl, _, rfl⟩

lemma precede_children {F : Step × Value → List Finding} {cs : List (Step × Value)}
    (hne : cs.Pairwise fun c d => c.1 ≠ d.1) (hF : ∀ c ∈ cs, ∀ f ∈ F c, Beyond path c.1 f) :
    cs.Pairwise fun c d => Precede (cs.flatMap F) (Beyond path c.1) (Beyond path d.1) := by
  induction cs with
  | nil => exact List.Pairwise.nil
  | cons c r ih =>
    obtain ⟨hc, hr⟩ := List.pairwise_cons.mp hne
    have apart : ∀ d ∈ r, ∀ f ∈ F c, ¬Beyond path d.1 f := fun d hd f hf hb =>
      hc d hd ((hF c List.mem_cons_self f hf).step_eq hb rfl)
    have ih := ih hr fun d hd => hF d (List.mem_cons_of_mem _ hd)
    rw [List.flatMap_cons]
    refine List.pairwise_cons.mpr ⟨fun d hd => Precede.append (apart d hd) fun f hf hb => ?_, ?_⟩
    · obtain ⟨d', hd', hf⟩ := List.mem_flatMap.mp hf
      exact hc d' hd' (hb.step_eq (hF d' (List.mem_cons_of_mem _ hd') f hf) rfl)
    · refine ih.imp_of_mem fun {a b} ha hb h => precede_append.mpr ⟨?_, h, ?_⟩
      · exact precede_of_none_second (apart b hb)
      · exact fun f hf hbf => absurd hbf (apart b hb f hf)

/-- Three lists of findings as a node has them: on the node itself or on members that it lacks, then
on what is in it, then that it is not listed. -/
structure Parts (v : Value) (path : String) (first middle last : List Finding) : Prop where
  first_listed : ∀ f ∈ first, ¬Unlisted f
  first_child : ∀ c ∈ v.children, ∀ f ∈ first, ¬Beyond path c.1 f
  middle_child : ∀ f ∈ middle, ∃ c ∈ v.children, Beyond path c.1 f
  middle_order : v.children.Pairwise fun c d =>
    Precede middle (Beyond path c.1) (Beyond path d.1)
  last_own : ∀ f ∈ last, f.path = path
  last_listed : ∀ f ∈ last, Unlisted f

namespace Parts

variable {first middle last : List Finding}

lemma middle_own (h : Parts v path first middle last) : ∀ f ∈ middle, f.path ≠ path := by
  intro f hf
  obtain ⟨c, -, hb⟩ := h.middle_child f hf
  exact hb.path_ne

lemma middle_missing (h : Parts v path first middle last) :
    ∀ f ∈ middle, ¬OnMissing v path f := by
  intro f hf hm
  obtain ⟨c, hc, hb⟩ := h.middle_child f hf
  exact hm.not_beyond hc hb

lemma inOrder (h : Parts v path first middle last) :
    InOrder v path (first ++ middle ++ last) where
  children := by
    refine h.middle_order.imp_of_mem fun {c d} hc hd hcd => ?_
    refine precede_append.mpr ⟨precede_append.mpr ⟨?_, hcd, ?_⟩, ?_, ?_⟩
    · exact precede_of_none_second (h.first_child d hd)
    · exact fun f hf hb => absurd hb (h.first_child d hd f hf)
    · exact precede_of_none_first fun f hf hb => hb.path_ne (h.last_own f hf)
    · exact fun f _ _ g hg hb => hb.path_ne (h.last_own g hg)
  own c hc := by
    rw [List.append_assoc]
    refine Precede.append (h.first_child c hc) fun f hf hown => ?_
    rcases List.mem_append.mp hf with hf | hf
    · exact h.middle_own f hf hown.1
    · exact hown.2 (h.last_listed f hf)
  missing c hc := by
    rw [List.append_assoc]
    refine Precede.append (h.first_child c hc) fun f hf hm => ?_
    rcases List.mem_append.mp hf with hf | hf
    · exact h.middle_missing f hf hm
    · exact hm.path_ne (h.last_own f hf)
  listed := by
    refine Precede.append (fun f hf hl => ?_) fun f hf hP => ?_
    · rcases List.mem_append.mp hf with hf | hf
      · exact h.first_listed f hf hl.2
      · exact h.middle_own f hf hl.1
    · rcases hP with ho | hm | ⟨c, -, hb⟩
      · exact ho.2 (h.last_listed f hf)
      · exact hm.path_ne (h.last_own f hf)
      · exact hb.path_ne (h.last_own f hf)

end Parts

lemma parts_of_entered (hv : v.KeysDistinct) (he : Entered e v s p) :
    Parts v p.path
      (malformedFindings s p.path ++ findings (contentNotices e.dialect s p.path v))
      (v.children.flatMap fun c => findings (childNotices e s p c))
      (enumFindings s p.path v) where
  first_listed f hf := by
    rcases List.mem_append.mp hf with hf | hf
    · rw [← entry_findings_of_entered he] at hf
      exact (mem_entry_findings.mp hf).not_unlisted
    · exact not_unlisted_of_mem_contentNotices (mem_findings.mp hf)
  first_child c hc f hf := by
    rcases List.mem_append.mp hf with hf | hf
    · exact fun hb => hb.path_ne (path_eq_of_mem_malformedFindings hf)
    · exact not_beyond_of_mem_contentNotices (mem_findings.mp hf) hc
  middle_child f hf := by
    obtain ⟨c, hc, hf⟩ := List.mem_flatMap.mp hf
    exact ⟨c, hc, beyond_of_mem_childNotices (mem_findings.mp hf)⟩
  middle_order := precede_children hv.steps_ne fun c _ f hf =>
    beyond_of_mem_childNotices (mem_findings.mp hf)
  last_own f hf := path_eq_of_mem_enumFindings hf
  last_listed f hf := unlisted_of_mem_enumFindings hf

/-- The findings of a walk stand in order at the node where it begins. -/
lemma inOrder_walk (hv : v.KeysDistinct) : InOrder v p.path (findings (walk e v s p)) := by
  by_cases he : Entered e v s p
  · rw [walk_of_entered he, ← List.append_assoc, ← List.append_assoc]
    simp only [findings_append, findings_ofFindings, findings_flatMap]
    exact (parts_of_entered hv he).inOrder
  · rw [walk_of_not_entered he, findings_ofFindings]
    refine .of_own fun f hf => ⟨path_eq_of_mem_entry hf, ?_⟩
    exact (mem_entry_findings.mp hf).not_unlisted

/-! ### The order at every node -/

/-- **Document order**: at every node of a document, the findings on what is in it stand as what is
in it does, those on the node itself and on members that it lacks before them, and the finding that
the node is not listed behind all of them. -/
theorem inOrder_of_validate (hv : v.KeysDistinct) (h : validate e v s path = .ok fs)
    (hx : v.at? steps = some x) : InOrder x (steps.foldl Path.down path) fs := by
  have hfs : fs = findings (walk e v s (Site.ofRoot path)) := by
    rw [eq_ofFindings_of_gather h, findings_ofFindings]
  rw [hfs]
  refine InOrder.of_foundBelow ?_
  rcases checked_or_untold (s := s) (p := Site.ofRoot path) hv hx with ⟨t, q, hq, hpath⟩ | huntold
  · change q.path = steps.foldl Path.down path at hpath
    rw [← hpath, foundBelow_of_checked hv hq]
    exact inOrder_walk (hq.keysDistinct hv)
  · refine .of_own fun f hf => ?_
    obtain ⟨hpath, hkind⟩ := huntold f hf
    refine ⟨hpath, fun hl => ?_⟩
    cases hkind.symm.trans hl.1

/-- An array inside an object: it is too short, both of its items have the wrong type, and it is not
listed; each of its findings stands where it should, amid those of the object. -/
theorem inOrder_shortArray :
    let v : Value := .object
      [("a", .array [.number .number (.int 1), .boolean true]), ("b", .string "x")]
    let s : Schema :=
      { required := ["c"]
        properties := [("b", { type := some "number" }),
          ("a", { minItems := some 3, items := some { type := some "string" }, enum := some [] })]
        enum := some [] }
    let x : Value := .array [.number .number (.int 1), .boolean true]
    let fs : List Finding :=
      [.missingProperty "$.c" "c",
        .invalidValue "$.a" "Array has fewer items than required minimum of 3"
          "array with min 3 items" "array with 2 items",
        .invalidType "$.a[0]" "string" "number" true,
        .invalidType "$.a[1]" "string" "boolean" true,
        .invalidValue "$.a" "Value must be one of: " "one of []" "array with 2 items",
        .invalidType "$.b" "number" "string" false,
        .invalidValue "$" "Value must be one of: " "one of []" "object with 2 keys"]
    v.KeysDistinct ∧ validate ⟨.json, 32⟩ v s "$" = .ok fs ∧ v.at? [.key "a"] = some x ∧
      InOrder x "$.a" fs := by
  intro v s x fs
  have hv : v.KeysDistinct := by simp [v, Members.keys]
  have hrun : validate ⟨.json, 32⟩ v s "$" = .ok fs := by decide +kernel
  have hx : v.at? [.key "a"] = some x := rfl
  have hpath : [Step.key "a"].foldl Path.down "$" = "$.a" := by decide +kernel
  refine ⟨hv, hrun, hx, ?_⟩
  rw [← hpath]
  exact inOrder_of_validate hv hrun hx

end Conform.Validator
