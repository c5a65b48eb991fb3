import InfraPins.Proofs.Search
import InfraPins.Upgrade.Patch

namespace InfraPins.Patch

open Text

/-- Whether a reference stands whole in a text: no name goes on before it and no version after it.
-/
def StandsWhole (reference content : List Char) : Prop :=
  ∃ before after, content = before ++ reference ++ after ∧
    before.getLast?.any isNameChar = false ∧ after.head?.any isVersionChar = false

theorem not_isNameChar_quote : isNameChar '"' = false := by decide

theorem not_isVersionChar_quote : isVersionChar '"' = false := by decide

theorem wholeHere?_eq_some_iff {reference text rest : List Char} {previous : Option Char} :
    wholeHere? reference previous text = some rest ↔
      previous.any isNameChar = false ∧ text = reference ++ rest ∧
        rest.head?.any isVersionChar = false := by
  unfold wholeHere?
  cases named : previous.any isNameChar with
  | true => simp
  | false =>
    cases here : after? reference text with
    | none =>
      have missed := after?_eq_none_iff.mp here
      simp only [Bool.false_eq_true, if_false, reduceCtorEq, true_and, false_iff]
      rintro ⟨split, _⟩
      exact missed ⟨rest, split.symm⟩
    | some value =>
      obtain rfl := after?_eq_some_iff.mp here
      cases goes : value.head?.any isVersionChar with
      | true =>
        simp only [Bool.false_eq_true, if_false, goes, if_true, reduceCtorEq, true_and, false_iff]
        rintro ⟨split, ends⟩
        rw [List.append_cancel_left split, ends] at goes
        cases goes
      | false =>
        simp only [Bool.false_eq_true, if_false, goes, Option.some.injEq, true_and]
        constructor
        · rintro rfl
          exact ⟨rfl, goes⟩
        · rintro ⟨split, _⟩
          exact List.append_cancel_left split

/-- No whole occurrence is found exactly when there is none. -/
theorem findWhole?_eq_none_iff {reference content : List Char} :
    findWhole? reference content = none ↔ ¬ StandsWhole reference content := by
  rw [findWhole?, Option.map_eq_none_iff, findFirst_eq_none_iff]
  constructor
  · rintro missed ⟨before, after, split, named, goes⟩
    have here := missed before (reference ++ after) (by rw [split, List.append_assoc])
    rw [wholeHere?_eq_some_iff.mpr ⟨by simpa [precededBy] using named, rfl, goes⟩] at here
    cases here
  · intro absent before rest split
    cases here : wholeHere? reference (precededBy none before) rest with
    | none => rfl
    | some after =>
      obtain ⟨named, rfl, goes⟩ := wholeHere?_eq_some_iff.mp here
      refine absurd ⟨before, after, by rw [split, List.append_assoc], ?_, goes⟩ absent
      simpa [precededBy] using named

/-- A whole occurrence that is found stands at its place. -/
theorem findWhole?_split {reference content : List Char} {place : Place}
    (found : findWhole? reference content = some place) :
    content = place.before ++ reference ++ place.after ∧
      place.before.getLast?.any isNameChar = false ∧
      place.after.head?.any isVersionChar = false := by
  obtain ⟨⟨before, after⟩, located, rfl⟩ := Option.map_eq_some_iff.mp found
  obtain ⟨rest, split, here, _⟩ := findFirst_eq_some_iff.mp located
  obtain ⟨starts, rfl, ends⟩ := wholeHere?_eq_some_iff.mp here
  exact ⟨by rw [split, List.append_assoc], by simpa [precededBy] using starts, ends⟩

private theorem after?_append_quote {reference left right : List Char} (bare : '"' ∉ reference) :
    after? reference (left ++ '"' :: right) = (after? reference left).map (· ++ '"' :: right) := by
  induction reference generalizing left with
  | nil => rfl
  | cons c reference ih =>
    obtain ⟨different, bare⟩ : '"' ≠ c ∧ '"' ∉ reference := by simpa using bare
    cases left with
    | nil => simp [after?, Ne.symm different]
    | cons d left =>
      by_cases same : (c == d) = true
      · simp [after?, same, ih bare]
      · simp [after?, same]

private theorem wholeHere?_append_quote {reference left right : List Char} {previous : Option Char}
    (bare : '"' ∉ reference) :
    wholeHere? reference previous (left ++ '"' :: right) =
      (wholeHere? reference previous left).map (· ++ '"' :: right) := by
  unfold wholeHere?
  cases previous.any isNameChar with
  | true => rfl
  | false =>
    rw [after?_append_quote bare]
    cases after? reference left with
    | none => rfl
    | some rest =>
      cases rest with
      | nil => simp [not_isVersionChar_quote]
      | cons c rest => cases goes : isVersionChar c <;> simp [goes]

private theorem findFirst_whole_after_quote {reference text : List Char} :
    findFirst (wholeHere? reference) (some '"') text =
      findFirst (wholeHere? reference) none text := by
  have same (rest : List Char) :
      wholeHere? reference (some '"') rest = wholeHere? reference none rest := by
    simp [wholeHere?, not_isNameChar_quote]
  cases text with
  | nil => simp [findFirst, same]
  | cons c text => simp [findFirst, same]

private theorem findFirst_whole_append_quote {reference left right : List Char}
    {previous : Option Char} (bare : '"' ∉ reference) (nonempty : reference ≠ []) :
    findFirst (wholeHere? reference) previous (left ++ '"' :: right) =
      ((findFirst (wholeHere? reference) previous left).map fun found =>
        ⟨found.before, found.value ++ '"' :: right⟩).or
      ((findFirst (wholeHere? reference) none right).map fun found =>
        ⟨left ++ '"' :: found.before, found.value⟩) := by
  induction left generalizing previous with
  | nil =>
    have missed : wholeHere? reference previous [] = none := by
      cases here : wholeHere? reference previous [] with
      | none => rfl
      | some rest => simp_all [wholeHere?_eq_some_iff]
    have passed : wholeHere? reference previous ([] ++ '"' :: right) = none := by
      rw [wholeHere?_append_quote bare, missed]
      rfl
    rw [List.nil_append] at passed ⊢
    simp [findFirst, missed, passed, findFirst_whole_after_quote]
  | cons c left ih =>
    have step : wholeHere? reference previous (c :: left ++ '"' :: right) =
        (wholeHere? reference previous (c :: left)).map (· ++ '"' :: right) :=
      wholeHere?_append_quote bare
    rw [List.cons_append] at step ⊢
    cases here : wholeHere? reference previous (c :: left) with
    | some rest => simp [findFirst, here, step]
    | none =>
      simp only [findFirst, here, step, ih, Option.map_none]
      cases findFirst (wholeHere? reference) (some c) left <;>
        cases findFirst (wholeHere? reference) none right <;> rfl

/-- A reference without quotes is looked for before a quote, and then after it. -/
theorem findWhole?_append_quote {reference left right : List Char} (bare : '"' ∉ reference)
    (nonempty : reference ≠ []) :
    findWhole? reference (left ++ '"' :: right) =
      ((findWhole? reference left).map fun place =>
        { place with after := place.after ++ '"' :: right }).or
      ((findWhole? reference right).map (·.behind (left ++ ['"']))) := by
  rw [findWhole?, findFirst_whole_append_quote bare nonempty]
  simp only [findWhole?]
  cases findFirst (wholeHere? reference) none left <;>
    cases findFirst (wholeHere? reference) none right <;> simp [Place.behind]

end InfraPins.Patch
