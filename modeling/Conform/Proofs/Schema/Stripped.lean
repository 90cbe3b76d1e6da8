import Conform.Proofs.Schema.Steps

/-!
Schema texts without their malformed keywords. What is left of a text is read as the same schema but
for the list of its malformed keywords, here and in every schema below: a keyword that is malformed
leaves its field at the default, as one that is absent does.
-/

namespace Conform.Schema

variable {ms : List (String × Json)} {j k : Json} {a : Step} {w : Keyword} {key : String}

namespace Keyword

@[simp] lemma ofName?_name (w : Keyword) : ofName? w.name = some w := by
  cases w <;> rfl

end Keyword

mutual

/-- The text without the malformed keywords in it, here and in the schemas below. -/
def stripped : Json → Json
  | .object ms => .object (strippedMembers ms)
  | j => j

def strippedMembers : List (String × Json) → List (String × Json)
  | [] => []
  | (key, j) :: r =>
    match Keyword.ofName? key with
    | some w =>
      if w.fits j then (key, strippedSetting w j) :: strippedMembers r else strippedMembers r
    | none => (key, j) :: strippedMembers r

def strippedSetting : Keyword → Json → Json
  | .properties, .object ps => .object (strippedProperties ps)
  | .items, .object ms => .object (strippedMembers ms)
  | _, j => j

def strippedProperties : List (String × Json) → List (String × Json)
  | [] => []
  | (name, j) :: r => (name, stripped j) :: strippedProperties r

end

lemma strippedProperties_eq (ps : List (String × Json)) :
    strippedProperties ps = ps.map fun m => (m.1, stripped m.2) := by
  induction ps with
  | nil => rfl
  | cons m r ih => rw [strippedProperties, ih, List.map_cons]

lemma fits_strippedSetting : w.fits (strippedSetting w j) = w.fits j := by
  cases w <;> cases j <;> rfl

lemma malformedIn_cons_of_fits {r : List (String × Json)}
    (h : ∀ w, Keyword.ofName? key = some w → w.fits j = true) :
    malformedIn ((key, j) :: r) = malformedIn r := by
  simp only [malformedIn, List.filterMap_cons]
  cases hw : Keyword.ofName? key with
  | none => rfl
  | some w => simp only [h w hw, if_true]

/-- Only properties and items hold schemas. -/
lemma strippedSetting_eq_self (h : w ≠ .properties ∧ w ≠ .items) : strippedSetting w j = j := by
  obtain ⟨hp, hi⟩ := h
  cases w <;> cases j <;> first | rfl | contradiction

lemma malformedIn_strippedMembers (ms : List (String × Json)) :
    malformedIn (strippedMembers ms) = [] := by
  induction ms with
  | nil => rfl
  | cons m r ih =>
    obtain ⟨key, j⟩ := m
    rw [strippedMembers]
    split
    · next w hw =>
      split
      · next hfits =>
        rw [malformedIn_cons_of_fits, ih]
        intro w' hw'
        cases hw.symm.trans hw'
        rw [fits_strippedSetting, hfits]
      · exact ih
    · next hw =>
      rw [malformedIn_cons_of_fits, ih]
      intro w hw'
      cases hw.symm.trans hw'

/-- What is left of a keyword is its setting, if that has the right shape. -/
lemma get?_strippedMembers (h : (Members.keys ms).Nodup) :
    Members.get? (strippedMembers ms) w.name =
      ((Members.get? ms w.name).filter w.fits).map (strippedSetting w) := by
  induction ms with
  | nil => rfl
  | cons m r ih =>
    obtain ⟨key, j⟩ := m
    obtain ⟨hkey, hr⟩ := List.nodup_cons.mp h
    have ih := ih hr
    by_cases hw : key = w.name
    · subst hw
      rw [strippedMembers, Keyword.ofName?_name, Members.get?, if_pos rfl, Option.filter_some]
      by_cases hfits : w.fits j = true
      · simp only [if_pos hfits, Members.get?, if_true, Option.map_some]
      · simp only [if_neg hfits, ih, Members.get?_eq_none_iff.mpr hkey]
        rfl
    · rw [strippedMembers, Members.get?, if_neg hw, ← ih]
      split
      · split
        · rw [Members.get?, if_neg hw]
        · rfl
      · rw [Members.get?, if_neg hw]

/-! ### Reading what is left -/

/-- A keyword is read from what is left as before, but for what is taken out of its setting. -/
lemma setting?_strippedMembers {α : Type} {read : Json → Option α} {g : α → α}
    (h : (Members.keys ms).Nodup) (hfits : ∀ j, (read j).isSome = w.fits j)
    (hread : ∀ j, read (strippedSetting w j) = (read j).map g) :
    setting? (strippedMembers ms) w read = (setting? ms w read).map g := by
  rw [setting?, setting?, get?_strippedMembers h]
  cases Members.get? ms w.name with
  | none => rfl
  | some j =>
    cases hj : read j with
    | none =>
      have hw : w.fits j = false := by rw [← hfits, hj]; rfl
      simp [Option.filter_some, hw, hj]
    | some x =>
      have hw : w.fits j = true := by rw [← hfits, hj]; rfl
      simp [Option.filter_some, hw, hj, hread]

/-- What is one step down in what is left is left of what is one step down. -/
lemma fragment?_stripped (h : j.KeysDistinct) :
    fragment? (stripped j) a = (fragment? j a).map stripped := by
  cases h with
  | @object ms nodup _ =>
    rw [stripped]
    cases a with
    | key name =>
      have hps : setting? (strippedMembers ms) .properties members? =
          (setting? ms .properties members?).map strippedProperties :=
        setting?_strippedMembers nodup (fun j => by cases j <;> rfl) fun j => by cases j <;> rfl
      rw [fragment?, fragment?, hps]
      cases setting? ms .properties members? with
      | none => rfl
      | some ps =>
        rw [Option.map_some, Option.bind_some, Option.bind_some, strippedProperties_eq,
          Members.get?_map]
    | index i =>
      exact setting?_strippedMembers nodup (fun j => by cases j <;> rfl) fun j => by cases j <;> rfl
  | null | bool | number | string | array => cases a <;> rfl

/-- What a schema asks of a node itself, its malformed keywords apart. -/
def own (s : Schema) : Schema := { s with properties := [], items := none, malformed := [] }

/-- What is asked of a node itself is read from the keywords that hold no schemas. -/
lemma own_congr {ns : List (String × Json)}
    (same : ∀ {α : Type} (w : Keyword) (read : Json → Option α), w ≠ .properties ∧ w ≠ .items →
      (∀ j, (read j).isSome = w.fits j) → setting? ms w read = setting? ns w read) :
    (ofJson (.object ms)).own = (ofJson (.object ns)).own := by
  simp only [ofJson, own, same .type string? (by decide) fun _ => rfl,
    same .required strings? (by decide) fun _ => rfl,
    same .additionalProperties bool? (by decide) fun _ => rfl,
    same .minItems count? (by decide) fun _ => rfl,
    same .maxItems count? (by decide) fun _ => rfl,
    same .minLength count? (by decide) fun _ => rfl,
    same .maxLength count? (by decide) fun _ => rfl,
    same .pattern string? (by decide) fun _ => rfl,
    same .minimum number? (by decide) fun _ => rfl,
    same .maximum number? (by decide) fun _ => rfl,
    same .exclusiveMinimum number? (by decide) fun _ => rfl,
    same .exclusiveMaximum number? (by decide) fun _ => rfl,
    same .multipleOf divisor? (by decide) fun _ => rfl,
    same .enum list? (by decide) fun _ => rfl]

/-- What is left of a text asks the same of a node itself. -/
lemma own_stripped (h : j.KeysDistinct) : (ofJson (stripped j)).own = (ofJson j).own := by
  cases h with
  | @object ms nodup _ =>
    rw [stripped]
    refine own_congr fun w read hw hfits => ?_
    have hread := setting?_strippedMembers (g := id) nodup hfits fun j => by
      rw [strippedSetting_eq_self hw, Option.map_id, id]
    rw [hread, Option.map_id, id]
  | null | bool | number | string | array => rfl

/-- What depends only on what is asked of a node itself is the same if that is. -/
lemma eq_of_own {α : Type} {s t : Schema} (g : Schema → α) (hg : ∀ s : Schema, g s.own = g s)
    (h : s.own = t.own) : g s = g t := by
  rw [← hg s, h, hg]

lemma malformed_stripped (j : Json) : (ofJson (stripped j)).malformed = [] := by
  cases j with
  | object ms => exact malformedIn_strippedMembers ms
  | null | bool | number | string | array => rfl

end Conform.Schema
