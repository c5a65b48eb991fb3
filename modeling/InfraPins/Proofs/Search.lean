import InfraPins.Text.Search

namespace InfraPins.Text

/-- The character before the place that a text leads up to. -/
def precededBy (previous : Option Char) (before : List Char) : Option Char :=
  before.getLast?.or previous

@[simp]
theorem precededBy_nil (previous : Option Char) : precededBy previous [] = previous := rfl

@[simp]
theorem precededBy_cons (previous : Option Char) (c : Char) (before : List Char) :
    precededBy previous (c :: before) = precededBy (some c) before := by
  simp only [precededBy, List.getLast?_cons]
  cases before.getLast? <;> rfl

/-- A search fails exactly when the recogniser fails at every place. -/
theorem findFirst_eq_none_iff {recognise : Option Char → List Char → Option α}
    {previous : Option Char} {text : List Char} :
    findFirst recognise previous text = none ↔
      ∀ before rest, text = before ++ rest →
        recognise (precededBy previous before) rest = none := by
  induction text generalizing previous with
  | nil =>
    constructor
    · intro missed before rest split
      obtain ⟨rfl, rfl⟩ := List.append_eq_nil_iff.mp split.symm
      simpa [findFirst] using missed
    · intro missed
      simpa [findFirst] using missed [] [] rfl
  | cons c text ih =>
    constructor
    · intro missed before rest split
      cases here : recognise previous (c :: text) with
      | some value => simp [findFirst, here] at missed
      | none =>
        simp only [findFirst, here, Option.map_eq_none_iff] at missed
        cases before with
        | nil =>
          obtain rfl : c :: text = rest := split
          exact here
        | cons d before =>
          obtain ⟨rfl, behind⟩ := List.cons_eq_cons.mp split
          simpa using ih.mp missed before rest behind
    · intro missed
      have here : recognise previous (c :: text) = none := missed [] (c :: text) rfl
      simp only [findFirst, here, Option.map_eq_none_iff]
      refine ih.mpr fun before rest split => ?_
      simpa using missed (c :: before) rest (congrArg (c :: ·) split)

/-- What a search finds is recognised at its place, and nothing is at an earlier one. -/
theorem findFirst_eq_some_iff {recognise : Option Char → List Char → Option α}
    {previous : Option Char} {text opening : List Char} {value : α} :
    findFirst recognise previous text = some ⟨opening, value⟩ ↔
      ∃ rest, text = opening ++ rest ∧
        recognise (precededBy previous opening) rest = some value ∧
        ∀ before middle, opening = before ++ middle → middle ≠ [] →
          recognise (precededBy previous before) (middle ++ rest) = none := by
  induction text generalizing previous opening with
  | nil =>
    constructor
    · intro found
      simp only [findFirst, Option.map_eq_some_iff, Found.mk.injEq] at found
      obtain ⟨_, here, rfl, rfl⟩ := found
      exact ⟨[], rfl, here, fun before middle split nonempty => by simp_all⟩
    · rintro ⟨rest, split, here, _⟩
      obtain ⟨rfl, rfl⟩ := List.append_eq_nil_iff.mp split.symm
      simpa [findFirst] using here
  | cons c text ih =>
    constructor
    · intro found
      cases here : recognise previous (c :: text) with
      | some other =>
        simp only [findFirst, here, Option.some.injEq, Found.mk.injEq] at found
        obtain ⟨rfl, rfl⟩ := found
        exact ⟨c :: text, rfl, here, fun before middle split nonempty => by simp_all⟩
      | none =>
        simp only [findFirst, here, Option.map_eq_some_iff, Found.mk.injEq] at found
        obtain ⟨⟨shorter, _⟩, found, rfl, rfl⟩ := found
        obtain ⟨rest, split, recognised, earlier⟩ := ih.mp found
        refine ⟨rest, by simp [split], by simpa using recognised, fun before middle cut nonempty => ?_⟩
        cases before with
        | nil =>
          obtain rfl : c :: shorter = middle := cut
          simpa [split] using here
        | cons d before =>
          obtain ⟨rfl, behind⟩ := List.cons_eq_cons.mp cut
          simpa using earlier before middle behind nonempty
    · rintro ⟨rest, split, recognised, earlier⟩
      cases opening with
      | nil =>
        obtain rfl : c :: text = rest := split
        have here : recognise previous (c :: text) = some value := recognised
        simp [findFirst, here]
      | cons d opening =>
        obtain ⟨rfl, behind⟩ := List.cons_eq_cons.mp split
        have here : recognise previous (c :: text) = none := by
          simpa [behind] using earlier [] (c :: opening) rfl (by simp)
        have found : findFirst recognise (some c) text = some ⟨opening, value⟩ := by
          refine ih.mpr ⟨rest, behind, by simpa using recognised, ?_⟩
          intro before middle cut nonempty
          simpa using earlier (c :: before) middle (congrArg (c :: ·) cut) nonempty
        simp [findFirst, here, found]

/-- A search finds no place behind one that is recognised. -/
theorem prefix_of_findFirst {recognise : Option Char → List Char → Option α}
    {previous : Option Char} {text front back : List Char} {found : Found α}
    (here : findFirst recognise previous text = some found) (split : text = front ++ back)
    (recognised : (recognise (precededBy previous front) back).isSome) : found.before <+: front := by
  obtain ⟨rest, split', _, earlier⟩ := findFirst_eq_some_iff.mp here
  rcases List.prefix_or_prefix_of_prefix ⟨rest, split'.symm⟩ ⟨back, split.symm⟩ with
    before | ⟨middle, whole⟩
  · exact before
  · by_cases same : middle = []
    · exact ⟨[], by rw [← whole, same, List.append_nil, List.append_nil]⟩
    · have behind : middle ++ rest = back := by
        apply (List.append_right_inj front).mp
        rw [← List.append_assoc, whole, ← split', split]
      have nothing := earlier front middle whole.symm same
      rw [behind] at nothing
      rw [nothing] at recognised
      cases recognised

theorem after?_eq_none_iff {opening text : List Char} :
    after? opening text = none ↔ ¬ opening <+: text := by
  constructor
  · rintro missed ⟨rest, split⟩
    rw [after?_eq_some_iff.mpr split.symm] at missed
    cases missed
  · intro missed
    cases here : after? opening text with
    | none => rfl
    | some rest => exact absurd ⟨rest, (after?_eq_some_iff.mp here).symm⟩ missed

theorem occurs_iff {part text : List Char} : occurs part text = true ↔ part <:+: text := by
  constructor
  · intro found
    obtain ⟨⟨before, after⟩, found⟩ := Option.isSome_iff_exists.mp found
    obtain ⟨rest, split, here, _⟩ := findFirst_eq_some_iff.mp found
    exact ⟨before, after, by rw [split, after?_eq_some_iff.mp here, List.append_assoc]⟩
  · rintro ⟨before, after, split⟩
    refine Option.isSome_iff_ne_none.mpr fun missed => ?_
    have here := findFirst_eq_none_iff.mp missed before (part ++ after) (by simp [← split])
    exact after?_eq_none_iff.mp here ⟨after, rfl⟩

def inQuotes (text : List Char) : List Char :=
  '"' :: (text ++ ['"'])

end InfraPins.Text
