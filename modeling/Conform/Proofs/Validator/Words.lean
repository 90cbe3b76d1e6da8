import Conform.Proofs.Validator.Walk

/-!
The words that messages begin with. Each check of a node has words of its own, none of which begins
with those of another, and no check speaks twice of a node; only malformed keywords may be several,
and each of their messages names another one. So the findings at a node differ in their messages.
-/

namespace Conform

namespace Finding

variable {P : Finding → Prop} {f : Finding} {fs gs : List Finding}

open Classical in
noncomputable def select (P : Finding → Prop) (fs : List Finding) : List Finding :=
  fs.filter fun f => P f

lemma mem_select : f ∈ select P fs ↔ f ∈ fs ∧ P f := by
  simp [select]

@[simp] lemma select_append : select P (fs ++ gs) = select P fs ++ select P gs :=
  List.filter_append _ _

lemma select_eq_self (h : ∀ f ∈ fs, P f) : select P fs = fs :=
  List.filter_eq_self.mpr fun f hf => by simpa using h f hf

lemma select_eq_nil (h : ∀ f ∈ fs, ¬P f) : select P fs = [] :=
  List.filter_eq_nil_iff.mpr fun f hf => by simpa using h f hf

end Finding

/-! ### The findings among notices -/

namespace Notice

def findings (ns : List Notice) : List Finding := ns.filterMap Except.toOption

@[simp] lemma findings_nil : findings [] = [] := rfl

@[simp] lemma findings_cons_ok (f : Finding) (ns : List Notice) :
    findings (.ok f :: ns) = f :: findings ns := rfl

@[simp] lemma findings_cons_error (i : Interruption) (ns : List Notice) :
    findings (.error i :: ns) = findings ns := rfl

@[simp] lemma findings_append (ms ns : List Notice) :
    findings (ms ++ ns) = findings ms ++ findings ns :=
  List.filterMap_append

@[simp] lemma findings_ofFindings (fs : List Finding) : findings (ofFindings fs) = fs := by
  induction fs with
  | nil => rfl
  | cons f r ih => exact congrArg (f :: ·) ih

lemma mem_findings {f : Finding} {ns : List Notice} : f ∈ findings ns ↔ .ok f ∈ ns := by
  rw [findings, List.mem_filterMap]
  constructor
  · rintro ⟨n, hn, hf⟩
    cases n with
    | ok g =>
      cases hf
      exact hn
    | error i => cases hf
  · exact fun h => ⟨.ok f, h, rfl⟩

open Classical in
/-- The choice of findings with a property, and of all interruptions or none. -/
noncomputable def choice (interruptions : Bool) (P : Finding → Prop) : Notice → Bool
  | .ok f => P f
  | .error _ => interruptions

variable {b : Bool} {P : Finding → Prop} {f : Finding} {fs : List Finding} {ns : List Notice}

@[simp] lemma choice_ok : choice b P (.ok f) = true ↔ P f := by
  simp [choice]

lemma choice_eq_false (h : ¬P f) : choice b P (.ok f) = false := by
  simp [choice, h]

@[simp] lemma choice_error (i : Interruption) : choice b P (.error i) = b := rfl

lemma findings_choice : findings (ns.filter (choice b P)) = Finding.select P (findings ns) := by
  induction ns with
  | nil => rfl
  | cons n r ih =>
    cases n with
    | ok f => by_cases h : P f <;> simpa [List.filter_cons, Finding.select, h] using ih
    | error i => cases b <;> simpa [List.filter_cons] using ih

/-- A choice that leaves no interruption out makes a choice of what is gathered. -/
lemma gather_choice :
    gather (ns.filter (choice true P)) = (gather ns).map (Finding.select P) := by
  induction ns with
  | nil => rfl
  | cons n r ih =>
    cases n with
    | ok f =>
      by_cases h : P f <;> cases hr : gather r <;>
        simp_all [gather, Except.map, Finding.select]
    | error i => simp [List.filter_cons, gather, Except.map]

lemma filter_choice_ofFindings :
    (ofFindings fs).filter (choice b P) = ofFindings (Finding.select P fs) :=
  List.filter_map

lemma filter_choice_eq_self (h : ∀ f, .ok f ∈ ns → P f) : ns.filter (choice true P) = ns := by
  refine List.filter_eq_self.mpr fun n hn => ?_
  cases n with
  | ok f => exact choice_ok.mpr (h f hn)
  | error i => rfl

lemma filter_choice_eq_nil (h : ∀ f, .ok f ∈ ns → ¬P f) : ns.filter (choice false P) = [] := by
  refine List.filter_eq_nil_iff.mpr fun n hn => ?_
  cases n with
  | ok f => exact fun hf => h f hn (choice_ok.mp hf)
  | error i => exact Bool.false_ne_true

/-- A change of what the notices say is one of the findings. -/
lemma gather_map (g : Finding → Finding) (ns : List Notice) :
    gather (ns.map (Except.map g)) = (gather ns).map (List.map g) := by
  induction ns with
  | nil => rfl
  | cons n r ih =>
    cases n with
    | ok f => cases hr : gather r <;> simp_all [gather, Except.map]
    | error i => rfl

end Notice

namespace Validator

open Notice

variable {d : Dialect} {e : Setup} {v : Value} {s : Schema} {p : Site} {f g : Finding}
  {fs gs : List Finding} {path : String}

def Differ (f g : Finding) : Prop := f.path = g.path → f.message ≠ g.message

lemma Differ.symm (h : Differ f g) : Differ g f := fun hp hm => h hp.symm hm.symm

abbrev Distinct (fs : List Finding) : Prop := fs.Pairwise Differ

lemma distinct_append : Distinct (fs ++ gs) ↔
    Distinct fs ∧ Distinct gs ∧ ∀ f ∈ fs, ∀ g ∈ gs, Differ f g :=
  List.pairwise_append

/-! ### First words -/

def Opens (words : String) (f : Finding) : Prop := ∃ r, f.message = words ++ r

def Parted (a b : String) : Prop := ¬a.toList <+: b.toList ∧ ¬b.toList <+: a.toList

instance (a b : String) : Decidable (Parted a b) := inferInstanceAs (Decidable (_ ∧ _))

lemma message_ne_of_opens {a b : String} (hf : Opens a f) (hg : Opens b g) (h : Parted a b) :
    f.message ≠ g.message := by
  obtain ⟨r, hr⟩ := hf
  obtain ⟨r', hr'⟩ := hg
  intro hm
  have ha : a.toList <+: f.message.toList := ⟨r.toList, by rw [hr, String.toList_append]⟩
  have hb : b.toList <+: f.message.toList := ⟨r'.toList, by rw [hm, hr', String.toList_append]⟩
  exact (List.prefix_or_prefix_of_prefix ha hb).elim h.1 h.2

lemma not_opens_of_opens {a b : String} (hf : Opens a f) (h : Parted a b) : ¬Opens b f :=
  fun hb => message_ne_of_opens hf hb h rfl

/-- Findings at one path that all differ and begin with one of some openings. -/
structure Speaks (path : String) (openings : List String) (fs : List Finding) : Prop where
  distinct : Distinct fs
  at_path : ∀ f ∈ fs, f.path = path
  opens : ∀ f ∈ fs, ∃ words ∈ openings, Opens words f

abbrev AllParted (as bs : List String) : Prop := ∀ a ∈ as, ∀ b ∈ bs, Parted a b

lemma Speaks.nil {as : List String} : Speaks path as [] :=
  ⟨List.Pairwise.nil, by simp, by simp⟩

lemma Speaks.mono {as bs : List String} (h : Speaks path as fs) (hab : as ⊆ bs) :
    Speaks path bs fs where
  distinct := h.distinct
  at_path := h.at_path
  opens f hf := by
    obtain ⟨a, ha, ho⟩ := h.opens f hf
    exact ⟨a, hab ha, ho⟩

lemma Speaks.differ {as bs : List String} (hf : Speaks path as fs) (hg : Speaks path bs gs)
    (h : AllParted as bs) : ∀ f ∈ fs, ∀ g ∈ gs, Differ f g := by
  intro f hmf g hmg _
  obtain ⟨a, ha, hoa⟩ := hf.opens f hmf
  obtain ⟨b, hb, hob⟩ := hg.opens g hmg
  exact message_ne_of_opens hoa hob (h a ha b hb)

lemma Speaks.not_opens {as : List String} {words : String} (h : Speaks path as fs)
    (ha : AllParted as [words]) (hf : f ∈ fs) : ¬Opens words f := by
  obtain ⟨a, hmem, ho⟩ := h.opens f hf
  exact not_opens_of_opens ho (ha a hmem words (List.mem_singleton_self _))

lemma Speaks.append {as bs : List String} (hf : Speaks path as fs) (hg : Speaks path bs gs)
    (h : AllParted as bs) : Speaks path (as ++ bs) (fs ++ gs) where
  distinct := distinct_append.mpr ⟨hf.distinct, hg.distinct, hf.differ hg h⟩
  at_path f hm := (List.mem_append.mp hm).elim (hf.at_path f) (hg.at_path f)
  opens f hm := by
    rcases List.mem_append.mp hm with hm | hm
    · exact (hf.mono (List.subset_append_left as bs)).opens f hm
    · exact (hg.mono (List.subset_append_right as bs)).opens f hm

lemma speaks_singleton {as : List String} (words : String) (hw : words ∈ as) (hp : f.path = path)
    (ho : Opens words f) : Speaks path as [f] where
  distinct := List.pairwise_singleton _ _
  at_path g hg := by rwa [List.mem_singleton.mp hg]
  opens g hg := ⟨words, hw, by rwa [List.mem_singleton.mp hg]⟩

lemma speaks_whenSet {α : Type} {setting : Option α} {violated : α → Bool}
    {finding : α → Finding} {words : String} (hp : ∀ a, (finding a).path = path)
    (hw : ∀ a, Opens words (finding a)) :
    Speaks path [words] (whenSet setting violated finding) := by
  unfold whenSet
  split
  · split
    · exact speaks_singleton words (List.mem_singleton_self _) (hp _) (hw _)
    · exact Speaks.nil
  · exact Speaks.nil

lemma Speaks.whenSet {α : Type} {setting : Option α} {violated : α → Bool}
    {finding : α → Finding} {words : String} {as : List String}
    (hp : ∀ a, (finding a).path = path) (hw : ∀ a, Opens words (finding a))
    (hf : Speaks path as fs) (h : AllParted [words] as) :
    Speaks path (words :: as) (whenSet setting violated finding ++ fs) :=
  (speaks_whenSet hp hw).append hf h

/-! ### The words of the checks -/

def malformedWords : List String := ["Malformed schema keyword '"]

def typeWords : List String :=
  ["Unrecognized schema type '", "Invalid array item type at '", "Invalid type at '", "Invalid "]

def sizeWords : List String :=
  ["Array has fewer items than required minimum of ",
    "Array has more items than allowed maximum of "]

def textWords : List String :=
  ["String is shorter than required minimum length ",
    "String is longer than allowed maximum length ", "Invalid regex pattern in schema: ",
    "String does not match pattern"]

def numberWords : List String :=
  ["Number is less than required minimum ", "Number is greater than allowed maximum ",
    "Number must be greater than ", "Number must be less than ", "Number must be a multiple of "]

/-- The words on what is inside a node, listed values apart. -/
def contentWords : List String := sizeWords ++ textWords ++ numberWords

def enumWords : List String := ["Value must be one of: "]

lemma speaks_malformedFindings (h : s.malformed.Nodup) :
    Speaks path malformedWords (malformedFindings s path) where
  distinct := by
    refine List.pairwise_map.mpr (h.imp fun {k l} hkl _ hm => hkl ?_)
    simpa [Finding.other, String.append_assoc] using hm
  at_path f hf := by
    obtain ⟨k, -, rfl⟩ := mem_malformedFindings.mp hf
    rfl
  opens f hf := by
    obtain ⟨k, -, rfl⟩ := mem_malformedFindings.mp hf
    exact ⟨_, List.mem_singleton_self _, k ++ "'", String.append_assoc⟩

lemma speaks_formFindings {r : TypeRule} : Speaks path typeWords (formFindings r path v) := by
  unfold formFindings
  split
  · next k text _ =>
    split
    · exact Speaks.nil
    · refine speaks_singleton "Invalid " (by decide) rfl
        ⟨k.form ++ (" format at '" ++ (path ++ "'")), ?_⟩
      simp only [Finding.invalidDateTime, String.append_assoc]
  · exact Speaks.nil

lemma speaks_typeFindings {type : String} :
    Speaks p.path typeWords (typeFindings d type p v) := by
  unfold typeFindings
  split
  · exact speaks_singleton "Unrecognized schema type '" (by decide) rfl
      ⟨type ++ "'", String.append_assoc⟩
  · split
    · exact speaks_formFindings
    · unfold Finding.invalidType
      split
      · exact speaks_singleton "Invalid array item type at '" (by decide) rfl
          ⟨p.path ++ "'", String.append_assoc⟩
      · exact speaks_singleton "Invalid type at '" (by decide) rfl
          ⟨p.path ++ "'", String.append_assoc⟩

lemma speaks_sizeFindings {count : Nat} : Speaks path sizeWords (sizeFindings s path count) :=
  .whenSet (fun _ => rfl) (fun _ => ⟨_, rfl⟩) (speaks_whenSet (fun _ => rfl) fun _ => ⟨_, rfl⟩)
    (by decide +kernel)

lemma speaks_numberFindings {n : Number} : Speaks path numberWords (numberFindings s path n) := by
  simp only [numberFindings, List.append_assoc]
  refine .whenSet (fun _ => rfl) (fun _ => ⟨_, rfl⟩) ?_ (by decide +kernel)
  refine .whenSet (fun _ => rfl) (fun _ => ⟨_, rfl⟩) ?_ (by decide +kernel)
  refine .whenSet (fun _ => rfl) (fun _ => ⟨_, rfl⟩) ?_ (by decide +kernel)
  refine .whenSet (fun _ => rfl) (fun _ => ⟨_, rfl⟩) ?_ (by decide +kernel)
  exact speaks_whenSet (fun _ => rfl) fun _ => ⟨_, rfl⟩

lemma speaks_patternNotices {source text shown : String} :
    Speaks path ["Invalid regex pattern in schema: ", "String does not match pattern"]
      (findings (patternNotices source path text shown)) := by
  unfold patternNotices
  split
  · split
    · exact Speaks.nil
    · exact speaks_singleton "String does not match pattern" (by decide) rfl
        ⟨"", String.append_empty.symm⟩
  · exact speaks_singleton "Invalid regex pattern in schema: " (by decide) rfl ⟨_, rfl⟩
  · exact Speaks.nil

lemma speaks_textNotices {text shown : String} :
    Speaks path textWords (findings (textNotices s path text shown)) := by
  simp only [textNotices, lengthFindings, findings_append, findings_ofFindings, List.append_assoc]
  refine .whenSet (fun _ => rfl) (fun _ => ⟨_, rfl⟩) ?_ (by decide +kernel)
  refine .whenSet (fun _ => rfl) (fun _ => ⟨_, rfl⟩) ?_ (by decide +kernel)
  split
  · exact speaks_patternNotices
  · exact Speaks.nil

lemma speaks_numberNotices {n : Number} :
    Speaks path numberWords (findings (numberNotices s path n)) := by
  unfold numberNotices
  split
  · rw [findings_ofFindings]
    exact speaks_numberFindings
  · exact Speaks.nil

lemma speaks_enumFindings : Speaks path enumWords (enumFindings s path v) :=
  speaks_whenSet (fun _ => rfl) fun _ => ⟨_, rfl⟩

/-- Of what an entered node has, members without a schema and faulty patterns are of no kind. -/
lemma ContentViolation.opens_of_other {d : Dialect} (h : ContentViolation d s path v f)
    (hk : f.kind = .other) :
    Opens "Additional property '" f ∨ Opens "Invalid regex pattern in schema: " f := by
  cases h with
  | undeclared => exact Or.inl ⟨_, String.append_assoc⟩
  | faultyPattern => exact Or.inr ⟨_, rfl⟩
  | missingTable | missingProperty | tooFewItems | tooManyItems | tooShort | tooLong | noMatch
  | belowMinimum | aboveMaximum | notAbove | notBelow | noMultiple | notListed => cases hk

end Validator

end Conform
