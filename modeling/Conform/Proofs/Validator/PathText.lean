import Conform.Proofs.Validator.Findings
import Conform.Proofs.Validator.Located

/-!
How the path of a finding is written. It is the root with the text of each step behind it: an
identifier follows a point, and any other key is quoted, so that what would end the line is escaped.
There is one exception: an identifier with a line break behind it is plain, and is not quoted.
-/

namespace Conform

namespace Path

variable {c : Char} {k : String} {r : List Char}

def Begins (c : Char) : Prop := c ∈ Set.Icc 'A' 'Z' ∨ c ∈ Set.Icc 'a' 'z' ∨ c = '_'

def Continues (c : Char) : Prop := Begins c ∨ c ∈ Set.Icc '0' '9' ∨ c = '-'

/-- An ASCII letter or underscore, then letters, underscores, digits and hyphens. -/
def IsIdentifier (cs : List Char) : Prop :=
  ∃ c r, cs = c :: r ∧ Begins c ∧ ∀ d ∈ r, Continues d

def IsBroken (cs : List Char) : Prop := ∃ r, IsIdentifier r ∧ cs = r ++ ['\n']

lemma isFirst_iff : isFirst c = true ↔ Begins c := by
  simp only [isFirst, Begins, Char.isAlpha, Char.isUpper, Char.isLower, Set.mem_Icc, Char.le_def,
    Bool.or_eq_true, Bool.and_eq_true, decide_eq_true_eq, or_assoc]

lemma isLater_iff : isLater c = true ↔ Continues c := by
  have hlater : isLater c = (isFirst c || (c.isDigit || decide (c = '-'))) := by
    simp only [isLater, isFirst, Char.isAlphanum]
    cases c.isAlpha <;> cases c.isDigit <;> simp
  have hdigit : c.isDigit = true ↔ c ∈ Set.Icc '0' '9' := by
    simp only [Char.isDigit, Set.mem_Icc, Char.le_def, Bool.and_eq_true, decide_eq_true_eq]
  rw [hlater, Bool.or_eq_true, Bool.or_eq_true, isFirst_iff, hdigit, decide_eq_true_eq, Continues]

lemma not_continues_break : ¬Continues '\n' := by
  rw [← isLater_iff]
  decide

/-- What is behind the plain characters is nothing, or one line break. -/
lemma isEnd_dropWhile_iff :
    isEnd (r.dropWhile isLater) = true ↔
      (∀ d ∈ r, Continues d) ∨ ∃ s, (∀ d ∈ s, Continues d) ∧ r = s ++ ['\n'] := by
  rw [isEnd, Bool.or_eq_true, List.isEmpty_iff, beq_iff_eq, List.dropWhile_eq_nil_iff]
  refine or_congr (forall₂_congr fun _ _ => isLater_iff) ⟨fun h => ?_, ?_⟩
  · refine ⟨r.takeWhile isLater, fun d hd => isLater_iff.mp (List.mem_takeWhile_imp hd), ?_⟩
    rw [← h, List.takeWhile_append_dropWhile]
  · rintro ⟨s, hs, rfl⟩
    rw [List.dropWhile_append_of_pos fun d hd => isLater_iff.mpr (hs d hd)]
    rfl

/-- A plain key is an identifier, or one with a line break behind it. -/
lemma isPlain_iff : isPlain k = true ↔ IsIdentifier k.toList ∨ IsBroken k.toList := by
  rw [isPlain]
  cases k.toList with
  | nil => simp [IsIdentifier, IsBroken]
  | cons c r =>
    simp only [Bool.and_eq_true, isFirst_iff, isEnd_dropWhile_iff]
    constructor
    · rintro ⟨hc, hr | ⟨s, hs, rfl⟩⟩
      · exact Or.inl ⟨c, r, rfl, hc, hr⟩
      · exact Or.inr ⟨c :: s, ⟨c, s, rfl, hc, hs⟩, rfl⟩
    · rintro (⟨_, _, ⟨⟩, hc, hr⟩ | ⟨_, ⟨_, s, rfl, hc, hs⟩, ⟨⟩⟩)
      · exact ⟨hc, Or.inl hr⟩
      · exact ⟨hc, Or.inr ⟨s, hs, rfl⟩⟩

lemma IsIdentifier.not_isBroken {cs : List Char} (h : IsIdentifier cs) : ¬IsBroken cs := by
  rintro ⟨_, ⟨d, s, rfl, -, -⟩, rfl⟩
  obtain ⟨_, _, ⟨⟩, -, hr⟩ := h
  exact not_continues_break (hr '\n' (by simp))

/-! ### Lines -/

/-- No character before the space, U+0020. -/
def OneLine (cs : List Char) : Prop := ∀ c ∈ cs, ' ' ≤ c

@[simp] lemma oneLine_nil : OneLine [] := List.forall_mem_nil _

@[simp] lemma oneLine_cons : OneLine (c :: r) ↔ ' ' ≤ c ∧ OneLine r := List.forall_mem_cons

@[simp] lemma oneLine_append {a b : List Char} : OneLine (a ++ b) ↔ OneLine a ∧ OneLine b :=
  List.forall_mem_append

lemma oneLine_flatMap {α : Type} {l : List α} {f : α → List Char} :
    OneLine (l.flatMap f) ↔ ∀ a ∈ l, OneLine (f a) := by
  simp only [OneLine, List.mem_flatMap]
  exact ⟨fun h a ha c hc => h c ⟨a, ha, hc⟩, fun h c ⟨a, ha, hc⟩ => h a ha c hc⟩

lemma Begins.space_le (h : Begins c) : ' ' ≤ c := by
  obtain h | h | rfl := h
  · exact le_trans (by decide) h.1
  · exact le_trans (by decide) h.1
  · decide

lemma Continues.space_le (h : Continues c) : ' ' ≤ c := by
  obtain h | h | rfl := h
  · exact h.space_le
  · exact le_trans (by decide) h.1
  · decide

lemma IsIdentifier.oneLine {cs : List Char} (h : IsIdentifier cs) : OneLine cs := by
  obtain ⟨c, r, rfl, hc, hr⟩ := h
  exact oneLine_cons.mpr ⟨hc.space_le, fun d hd => (hr d hd).space_le⟩

lemma IsBroken.not_oneLine {cs : List Char} (h : IsBroken cs) : ¬OneLine cs := by
  obtain ⟨r, -, rfl⟩ := h
  simp

lemma oneLine_escaped (c : Char) : OneLine (Json.escaped .unicode c) := by
  have hletter : ∀ l, Json.control? l = some c → ' ' ≤ l := by
    intro l hl
    unfold Json.control? at hl
    split at hl <;> first | decide | cases hl
  have hhex : ∀ n < 0x20, (Text.hexPadded 4 n).toList.all (' ' ≤ ·) = true := by decide +kernel
  obtain ⟨l, hl, he⟩ | ⟨hc, he⟩ | ⟨-, -, hc, he⟩ := Json.escaped_cases c
  · simp [he, hletter l hl]
  · have hcode : OneLine (Text.hexPadded 4 c.toNat).toList := by
      simpa [OneLine] using hhex c.toNat hc
    simp [he, hcode]
  · simp only [he, oneLine_cons, oneLine_nil, and_true]
    exact hc

lemma oneLine_quoted (k : String) : OneLine (Json.quoted .unicode k).toList := by
  rw [Json.quoted, String.toList_ofList]
  simp [oneLine_flatMap.mpr fun c (_ : c ∈ k.toList) => oneLine_escaped c]

lemma oneLine_toString (i : Int) : OneLine (toString i).toList := by
  intro c hc
  obtain rfl | hd := toString_int_avoids i c hc
  · decide
  · exact Continues.space_le (isLater_iff.mp (by simp [isLater, Char.isAlphanum, hd]))

end Path

/-! ### Steps -/

namespace Step

/-- How the text of a step is to be: an identifier follows a point, any other key stands quoted in
brackets, and so does an index without the quotes. -/
inductive Shown : Step → List Char → Prop where
  | plain {k : String} (h : Path.IsIdentifier k.toList) : Shown (.key k) ('.' :: k.toList)
  | quoted {k : String} (h : ¬Path.IsIdentifier k.toList) :
      Shown (.key k) ('[' :: ((Json.quoted .unicode k).toList ++ [']']))
  | index (i : Int) : Shown (.index i) ('[' :: ((toString i).toList ++ [']']))

def IsBroken (s : Step) : Prop := ∃ k, s = .key k ∧ Path.IsBroken k.toList

variable {s : Step}

/-- What is shown as it is to be does not leave the line. -/
lemma Shown.oneLine {cs : List Char} (h : s.Shown cs) : Path.OneLine cs := by
  cases h with
  | plain h => exact Path.oneLine_cons.mpr ⟨by decide, h.oneLine⟩
  | @quoted k => simp [Path.oneLine_quoted k]
  | index i =>
    refine Path.oneLine_cons.mpr ⟨by decide, Path.oneLine_append.mpr ⟨Path.oneLine_toString i, ?_⟩⟩
    simp

lemma shown_text (h : ¬s.IsBroken) : s.Shown s.text := by
  cases s with
  | index i => exact .index i
  | key k =>
    have hb : ¬Path.IsBroken k.toList := fun hb => h ⟨k, rfl, hb⟩
    rw [text]
    by_cases hi : Path.IsIdentifier k.toList
    · rw [if_pos (Path.isPlain_iff.mpr (Or.inl hi))]
      exact .plain hi
    · rw [if_neg (Path.isPlain_iff.not.mpr (not_or.mpr ⟨hi, hb⟩))]
      exact .quoted hi

lemma IsBroken.not_oneLine (h : s.IsBroken) : ¬Path.OneLine s.text := by
  obtain ⟨k, rfl, hb⟩ := h
  rw [text, if_pos (Path.isPlain_iff.mpr (Or.inr hb)), Path.oneLine_cons]
  exact fun h => hb.not_oneLine h.2

lemma shown_text_iff : s.Shown s.text ↔ ¬s.IsBroken :=
  ⟨fun h hb => hb.not_oneLine h.oneLine, shown_text⟩

lemma oneLine_text_iff : Path.OneLine s.text ↔ ¬s.IsBroken :=
  ⟨fun h hb => hb.not_oneLine h, fun h => (shown_text h).oneLine⟩

end Step

namespace Validator

variable {e : Setup} {v : Value} {s : Schema} {f : Finding} {fs : List Finding} {path : String}

lemma atOrBelow_of_validate (h : validate e v s path = .ok fs) (hf : f ∈ fs) :
    AtOrBelow path f := by
  have hw : walk e v s (Site.ofRoot path) = Notice.ofFindings fs :=
    Notice.eq_ofFindings_of_gather h
  exact atOrBelow_of_mem_walk (p := Site.ofRoot path)
    (hw ▸ Notice.ok_mem_ofFindings.mpr hf)

/-- **Paths on one line**: the path of a finding is the root with the text of each step behind it.
The text of a step is as it is to be, and the path is on one line, unless the step leads to a key
that is an identifier with a line break behind it. -/
theorem path_shown_iff (h : validate e v s Path.root = .ok fs) (hf : f ∈ fs) :
    ∃ steps : List Step, f.path = steps.foldl Path.down Path.root ∧
      f.path.toList = '$' :: steps.flatMap Step.text ∧
      (∀ a ∈ steps, a.Shown a.text ↔ ¬a.IsBroken) ∧
      (Path.OneLine f.path.toList ↔ ∀ a ∈ steps, ¬a.IsBroken) := by
  obtain ⟨steps, hsteps⟩ := atOrBelow_of_validate h hf
  have htext : f.path.toList = '$' :: steps.flatMap Step.text := by
    rw [hsteps, Path.toList_foldl_down]
    rfl
  refine ⟨steps, hsteps, htext, fun a _ => Step.shown_text_iff, ?_⟩
  rw [htext, Path.oneLine_cons, Path.oneLine_flatMap]
  simp only [Step.oneLine_text_iff]
  exact and_iff_right (by decide)

/-- A missing member, and an item of the wrong type, below keys with a tab and a line break. -/
theorem path_shown_iff_quoted :
    let v : Value := .object [("a\tb", .array [.object [], .object [("é\n", .boolean true)]])]
    let item : Schema :=
      { required := ["id-2"], properties := [("é\n", { type := some "string" })] }
    let s : Schema := { properties := [("a\tb", { items := some item })] }
    let fs : List Finding :=
      [.missingProperty "$[\"a\\tb\"][0].id-2" "id-2",
        .missingProperty "$[\"a\\tb\"][1].id-2" "id-2",
        .invalidType "$[\"a\\tb\"][1][\"é\\n\"]" "string" "boolean" false]
    validate ⟨.json, 32⟩ v s Path.root = .ok fs ∧
      ∀ f ∈ fs, ∃ steps : List Step, f.path = steps.foldl Path.down Path.root ∧
        f.path.toList = '$' :: steps.flatMap Step.text ∧
        (∀ a ∈ steps, a.Shown a.text ↔ ¬a.IsBroken) ∧
        (Path.OneLine f.path.toList ↔ ∀ a ∈ steps, ¬a.IsBroken) := by
  intro v item s fs
  have hrun : validate ⟨.json, 32⟩ v s Path.root = .ok fs := by decide +kernel
  exact ⟨hrun, fun f hf => path_shown_iff hrun hf⟩

/-- A key that ends with a line break is not quoted, and breaks the path. -/
theorem line_break_not_quoted :
    let v : Value := .object [("a\n", .number .number (.int 1))]
    let s : Schema := { properties := [("a\n", { type := some "string" })] }
    let f : Finding := .invalidType "$.a\n" "string" "number" false
    validate ⟨.json, 32⟩ v s Path.root = .ok [f] ∧
      f.path = Path.down Path.root (.key "a\n") ∧ ¬Path.IsIdentifier "a\n".toList ∧
      ¬(Step.key "a\n").Shown (Step.key "a\n").text ∧ ¬Path.OneLine f.path.toList := by
  intro v s f
  have ha : Path.IsIdentifier ['a'] := ⟨'a', [], rfl, Path.isFirst_iff.mp rfl, by simp⟩
  have hb : Path.IsBroken "a\n".toList := ⟨['a'], ha, by simp⟩
  have hstep : (Step.key "a\n").IsBroken := ⟨"a\n", rfl, hb⟩
  refine ⟨by decide +kernel, by decide +kernel, fun hi => hi.not_isBroken hb,
    fun hs => Step.shown_text_iff.mp hs hstep, fun hl => ?_⟩
  exact absurd (hl '\n' (by decide +kernel)) (by decide)

end Validator

end Conform
