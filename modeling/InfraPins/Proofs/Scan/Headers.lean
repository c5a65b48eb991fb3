import InfraPins.Proofs.Scan.Pattern
import InfraPins.Scan.Structured

namespace InfraPins.Scan

open Text

variable {front : List Char}

/-- The text behind the keyword of a module, white space and a quote. -/
def headed? (text : List Char) : Option (List Char) :=
  (after? "module".toList text).bind fun rest =>
    if (rest.takeWhile isBlank).isEmpty then none else after? ['"'] (rest.dropWhile isBlank)

def namedHere? (name text : List Char) : Option (List Char) :=
  (headed? text).bind (after? (name ++ ['"']))

theorem headerHere?_eq_headed (text : List Char) :
    headerHere? text = (headed? text).bind fun inner => (cutAt? '"' inner).bind fun found =>
      if found.1.isEmpty then none else some found := by
  rw [headerHere?_eq, headed?]
  cases after? "module".toList text with
  | none => rfl
  | some rest =>
    simp only [Option.bind_some, quotedHere?_eq]
    split <;> rfl

private theorem after?_quoted (name text : List Char) :
    after? ('"' :: name ++ ['"']) text = (after? ['"'] text).bind (after? (name ++ ['"'])) := by
  cases text with
  | nil => rfl
  | cons c text =>
    by_cases quote : '"' = c
    · subst quote
      simp [after?]
    · simp [after?, quote]

theorem namedHeaderHere?_eq (name : List Char) (previous : Option Char) (text : List Char) :
    namedHeaderHere? name previous text =
      if previous = none ∨ previous = some '\n' then
        (namedHere? name (text.dropWhile fun c => c == ' ' || c == '\t')).map fun _ => ()
      else none := by
  unfold namedHeaderHere? namedHere? headed?
  simp only [Bool.or_eq_true, beq_iff_eq, spanWhile, Option.bind_eq_bind, after?_quoted]
  split
  · cases after? "module".toList (text.dropWhile fun c => c == ' ' || c == '\t') with
    | none => rfl
    | some rest =>
      simp only [Option.bind_some]
      by_cases gap : (rest.takeWhile isBlank).isEmpty = true
      · rw [if_pos gap, if_pos gap]
        rfl
      · rw [if_neg gap, if_neg gap, Option.map_eq_bind]
        rfl
  · rfl

theorem blockHere?_eq_none (text : List Char) (bare : headed? text = none) : blockHere? text = none := by
  rw [blockHere?_eq, headerHere?_eq_headed, bare]
  rfl

theorem namedHere?_eq_none (name text : List Char) (bare : headed? text = none) :
    namedHere? name text = none := by
  rw [namedHere?, bare]
  rfl

theorem headed?_of_ne {c : Char} (other : c ≠ 'm') (text : List Char) : headed? (c :: text) = none := by
  have first : "module".toList = 'm' :: "odule".toList := rfl
  rw [headed?, first]
  simp [after?, other.symm]

/-- A text without the first letter of the keyword has no header in it. -/
theorem quiet_of_notMem (absent : 'm' ∉ front) (text : List Char) : Quiet headed? front text := by
  induction front with
  | nil => exact quiet_nil
  | cons c front ih =>
    obtain ⟨other, absent⟩ := List.ne_and_not_mem_of_not_mem_cons absent
    exact quiet_cons_iff.mpr ⟨headed?_of_ne other.symm _, ih absent⟩

/-- A word, though it may end with the keyword, has no header in it if what follows it is neither more of
the keyword nor white space and a quote. -/
theorem quiet_word {word rest : List Char} {c : Char} (solid : ∀ d ∈ word, isBlank d = false)
    (outside : c ∉ "module".toList)
    (shut : isBlank c = true → after? ['"'] ((c :: rest).dropWhile isBlank) = none) :
    Quiet headed? word (c :: rest) := by
  intro inner within _
  rw [headed?, Option.bind_eq_none_iff]
  intro behind keyword
  rw [after?_eq_some_iff] at keyword
  rcases List.append_eq_append_iff.mp keyword with ⟨more, first, second⟩ | ⟨more, first, rfl⟩
  · cases more with
    | nil =>
      rw [List.nil_append] at second
      subst second
      split
      · rfl
      · rename_i gap
        apply shut
        cases blank : isBlank c with
        | true => rfl
        | false => simp [blank] at gap
    | cons d more =>
      obtain ⟨rfl, -⟩ := List.cons.inj second
      exact absurd (by simp [first]) outside
  · cases more with
    | nil =>
      rw [List.nil_append]
      split
      · rfl
      · rename_i gap
        apply shut
        cases blank : isBlank c with
        | true => rfl
        | false => simp [blank] at gap
    | cons d more =>
      have within : d ∈ word := within.subset (by simp [first])
      simp [solid d within]

end InfraPins.Scan
