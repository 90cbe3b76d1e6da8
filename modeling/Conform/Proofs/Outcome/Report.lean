import Conform.Outcome
import Conform.Proofs.Text.Unbroken

/-!
The lines of a report. A report with findings has one line for each of them, behind its header, if
and only if no text that a finding puts into it has a line break.
-/

namespace Conform

/-- No text of the finding that goes into a report has a line break. What was expected and what was
found go in together, if both are there. -/
structure Finding.Unbroken (f : Finding) : Prop where
  path : Text.Unbroken f.path
  message : Text.Unbroken f.message
  expected {e g : String} (he : f.expected = some e) (hg : f.found = some g) : Text.Unbroken e
  found {e g : String} (he : f.expected = some e) (hg : f.found = some g) : Text.Unbroken g

namespace Outcome

variable {o : Outcome} {fs : List Finding} {f : Finding} {i k : Nat}

/-- The report is the header and, for each finding, one line, which begins with its number, its path
and its message. -/
def Lined (o : Outcome) : Prop :=
  ∃ rows : List (List Char),
    o.report.toList.splitOn '\n' = (header o.dialect o.findings.length).toList :: rows ∧
    rows.length = o.findings.length ∧
    ∀ k f, o.findings[k]? = some f → ∃ row, rows[k]? = some row ∧
      ("[" ++ toString (k + 1) ++ "] " ++ f.display).toList <+: row

/-- A text has one line more than it has breaks. -/
lemma length_splitOn (c : Char) (cs : List Char) : (cs.splitOn c).length = cs.count c + 1 := by
  induction cs with
  | nil => rfl
  | cons d r ih =>
    rw [List.splitOn, List.splitOnP_cons_eq_if_modifyHead, List.count_cons]
    split
    · rw [List.length_cons]
      exact congrArg (· + 1) ih
    · rw [List.length_modifyHead]
      exact ih

/-- Lines put together have the breaks between them and their own. -/
lemma count_intercalate (c : Char) (l : List Char) (ls : List (List Char)) :
    ([c].intercalate (l :: ls)).count c = ((l :: ls).map (List.count c)).sum + ls.length := by
  induction ls generalizing l with
  | nil => simp
  | cons l' r ih =>
    rw [List.intercalate_cons_cons, List.count_append, List.count_append, ih]
    simp only [List.count_singleton_self, List.map_cons, List.sum_cons, List.length_cons]
    omega

/-- Lines that are put together are as many as before only if none had a break. -/
lemma notMem_of_length_splitOn {c : Char} {l : List Char} {ls : List (List Char)}
    (h : (([c].intercalate (l :: ls)).splitOn c).length = ls.length + 1) :
    ∀ m ∈ l :: ls, c ∉ m := by
  rw [length_splitOn, count_intercalate] at h
  have hsum : ((l :: ls).map (List.count c)).sum = 0 := by omega
  intro m hm
  exact List.count_eq_zero.mp (List.sum_eq_zero_iff.mp hsum _ (List.mem_map_of_mem hm))

/-! ### Lines of findings -/

@[simp] lemma length_lines (i : Nat) (fs : List Finding) : (lines i fs).length = fs.length := by
  induction fs generalizing i with
  | nil => rfl
  | cons f r ih => rw [lines, List.length_cons, List.length_cons, ih]

lemma getElem?_lines (i k : Nat) (fs : List Finding) :
    (lines i fs)[k]? = fs[k]?.map (line (i + k)) := by
  induction fs generalizing i k with
  | nil => rfl
  | cons f r ih =>
    cases k with
    | zero => rfl
    | succ k =>
      rw [lines, List.getElem?_cons_succ, List.getElem?_cons_succ, ih, Nat.add_right_comm,
        Nat.add_assoc]

lemma mem_lines {s : String} : s ∈ lines i fs ↔ ∃ k f, fs[k]? = some f ∧ s = line (i + k) f := by
  simp only [List.mem_iff_getElem?, getElem?_lines, Option.map_eq_some_iff]
  exact exists_congr fun k => exists_congr fun f => and_congr_right fun _ => eq_comm

/-- The number in front of a line and what stands between its texts have no line break. -/
lemma unbroken_line : Text.Unbroken (line i f) ↔ f.Unbroken := by
  obtain ⟨kind, path, message, expected, found⟩ := f
  have hfront : Text.Unbroken ("[" ++ toString i ++ "] " ++ (path ++ ": " ++ message)) ↔
      Text.Unbroken path ∧ Text.Unbroken message := by
    have hopen : Text.Unbroken "[" := .literal (by decide)
    have hclose : Text.Unbroken "] " := .literal (by decide)
    have hcolon : Text.Unbroken ": " := .literal (by decide)
    simp only [Text.unbroken_append, Text.unbroken_natToString, hopen, hclose, hcolon, true_and,
      and_true]
  have hback : ∀ e g, Text.Unbroken (" (expected: " ++ e ++ ", found: " ++ g ++ ")") ↔
      Text.Unbroken e ∧ Text.Unbroken g := by
    intro e g
    have hexpected : Text.Unbroken " (expected: " := .literal (by decide)
    have hfound : Text.Unbroken ", found: " := .literal (by decide)
    have hclose : Text.Unbroken ")" := .literal (by decide)
    simp only [Text.unbroken_append, hexpected, hfound, hclose, true_and, and_true]
  rw [line, Text.unbroken_append, Finding.display, hfront]
  constructor
  · rintro ⟨⟨hp, hm⟩, h⟩
    refine ⟨hp, hm, ?_, ?_⟩ <;> rintro e g ⟨⟩ ⟨⟩
    · exact ((hback e g).mp h).1
    · exact ((hback e g).mp h).2
  · rintro ⟨hp, hm, he, hg⟩
    refine ⟨⟨hp, hm⟩, ?_⟩
    cases expected with
    | none => exact .literal List.not_mem_nil
    | some e =>
      cases found with
      | none => exact .literal List.not_mem_nil
      | some g => exact (hback e g).mpr ⟨he rfl rfl, hg rfl rfl⟩

lemma unbroken_header (d : Dialect) (n : Nat) : Text.Unbroken (header d n) := by
  have hlabel : Text.Unbroken d.label := by cases d <;> exact .literal (by decide)
  exact .append (.append (.append hlabel (.literal (by decide))) (Text.unbroken_natToString n))
    (.literal (by decide))

lemma prefix_line (i : Nat) (f : Finding) :
    ("[" ++ toString i ++ "] " ++ f.display).toList <+: (line i f).toList := by
  rw [line, String.toList_append (s := _ ++ f.display)]
  exact List.prefix_append _ _

lemma toList_report (h : o.ok = false) :
    o.report.toList = ['\n'].intercalate
      ((header o.dialect o.findings.length).toList :: (lines 1 o.findings).map String.toList) := by
  rw [report, h, if_neg Bool.false_ne_true, String.toList_intercalate]
  rfl

/-- **One line each**: a report with findings has a line for each of them if and only if none puts a
line break into it. -/
lemma lined_iff (h : o.ok = false) : o.Lined ↔ ∀ f ∈ o.findings, f.Unbroken := by
  constructor
  · rintro ⟨rows, hrows, hlength, -⟩ f hf
    obtain ⟨k, hk⟩ := List.mem_iff_getElem?.mp hf
    have hlines : (o.report.toList.splitOn '\n').length = (lines 1 o.findings).length + 1 := by
      rw [hrows, List.length_cons, hlength, length_lines]
    rw [toList_report h, ← List.length_map String.toList] at hlines
    have hmem : line (1 + k) f ∈ lines 1 o.findings := mem_lines.mpr ⟨k, f, hk, rfl⟩
    have hline : Text.Unbroken (line (1 + k) f) :=
      notMem_of_length_splitOn hlines _ (List.mem_cons_of_mem _ (List.mem_map_of_mem hmem))
    exact unbroken_line.mp hline
  · intro hall
    refine ⟨(lines 1 o.findings).map String.toList, ?_, by simp, fun k f hk => ?_⟩
    · rw [toList_report h]
      refine List.splitOn_intercalate '\n' ?_ (List.cons_ne_nil _ _)
      refine List.forall_mem_cons.mpr ⟨unbroken_header _ _, List.forall_mem_map.mpr ?_⟩
      intro s hs
      obtain ⟨k, f, hk, rfl⟩ := mem_lines.mp hs
      exact unbroken_line.mpr (hall f (List.mem_of_getElem? hk))
    · refine ⟨(line (k + 1) f).toList, ?_, prefix_line (k + 1) f⟩
      rw [List.getElem?_map, getElem?_lines, hk, Nat.add_comm 1 k]
      rfl

end Outcome

end Conform
