import InfraPins.Text.Blank
import Mathlib.Data.List.TakeWhile

namespace InfraPins.Text

variable {text lead trail : List Char}

theorem trimStart_append (blank : ∀ c ∈ lead, isBlank c = true) :
    trimStart (lead ++ text) = trimStart text :=
  List.dropWhile_append_of_pos blank

theorem trimEnd_append (blank : ∀ c ∈ trail, isBlank c = true) :
    trimEnd (text ++ trail) = trimEnd text := by
  have behind : ∀ c ∈ trail.reverse, isBlank c = true := by simpa using blank
  rw [trimEnd, List.reverse_append, List.dropWhile_append_of_pos behind, trimEnd]

/-- White space around a text is trimmed. -/
theorem trim_surrounded (blank : ∀ c ∈ lead, isBlank c = true)
    (blank' : ∀ c ∈ trail, isBlank c = true) : trim (lead ++ text ++ trail) = trim text := by
  rw [trim, List.append_assoc, trimStart_append blank, trim, trimStart, List.dropWhile_append]
  by_cases empty : text.dropWhile isBlank = []
  · have none : trail.dropWhile isBlank = [] := List.dropWhile_eq_nil_iff.mpr blank'
    simp [empty, none, trimStart]
  · simp only [List.isEmpty_iff, empty, if_false]
    exact trimEnd_append blank'

/-- A text is what is left when it is trimmed, between white space. -/
theorem eq_trim (text : List Char) :
    ∃ lead trail, text = lead ++ trim text ++ trail ∧ (∀ c ∈ lead, isBlank c = true) ∧
      ∀ c ∈ trail, isBlank c = true := by
  refine ⟨text.takeWhile isBlank, ((trimStart text).reverse.takeWhile isBlank).reverse, ?_, ?_, ?_⟩
  · have behind : trimEnd (trimStart text) ++
        ((trimStart text).reverse.takeWhile isBlank).reverse = trimStart text := by
      rw [trimEnd, ← List.reverse_append, List.takeWhile_append_dropWhile, List.reverse_reverse]
    rw [List.append_assoc, trim, behind]
    exact List.takeWhile_append_dropWhile.symm
  · exact List.all_eq_true.mp List.all_takeWhile
  · intro c member
    exact List.all_eq_true.mp List.all_takeWhile c (List.mem_reverse.mp member)

@[simp]
theorem trim_trim (text : List Char) : trim (trim text) = trim text := by
  obtain ⟨lead, trail, split, blank, blank'⟩ := eq_trim text
  calc
    trim (trim text) = trim (lead ++ trim text ++ trail) := (trim_surrounded blank blank').symm
    _ = trim text := by rw [← split]

end InfraPins.Text
