import InfraPins.Proofs.Text.Pieces
import InfraPins.Text.Search

namespace InfraPins.Text

variable {separator text piece : List Char} {pieces others : List (List Char)} {c : Char}

theorem join_cons : join separator (piece :: pieces) = piece ++ pieces.flatMap (separator ++ ·) := by
  induction pieces generalizing piece with
  | nil => simp [join]
  | cons next pieces ih =>
    rw [join, ih, List.flatMap_cons, List.append_assoc, List.append_assoc]
    exact List.cons_ne_nil next pieces

/-- Pieces behind others have a separator before each of them. -/
theorem join_append (some : pieces ≠ []) :
    join separator (pieces ++ others) = join separator pieces ++ others.flatMap (separator ++ ·) := by
  obtain ⟨piece, pieces, rfl⟩ := List.exists_cons_of_ne_nil some
  rw [List.cons_append, join_cons, join_cons, List.flatMap_append, List.append_assoc]

theorem splitAtCrlf_ne_nil (text : List Char) : splitAtCrlf text ≠ [] := by
  fun_cases splitAtCrlf text <;> nofun

/-- A character that does not open a line end belongs to the line that follows it. -/
theorem splitAtCrlf_cons (apart : c = '\r' → text.head? ≠ some '\n')
    (same : splitAtCrlf text = piece :: pieces) : splitAtCrlf (c :: text) = (c :: piece) :: pieces := by
  rw [splitAtCrlf, same]
  rintro rest rfl rfl
  exact apart rfl rfl

theorem splitAtCrlf_append (front back : List Char) :
    splitAtCrlf (front ++ '\r' :: '\n' :: back) = splitAtCrlf front ++ splitAtCrlf back := by
  fun_induction splitAtCrlf front with
  | case1 => rfl
  | case2 rest ih => rw [List.cons_append, List.cons_append, splitAtCrlf, ih, List.cons_append]
  | case3 c rest apart none ih => exact absurd none (splitAtCrlf_ne_nil rest)
  | case4 c rest apart piece pieces same ih =>
    rw [same] at ih
    refine splitAtCrlf_cons ?_ ih
    intro opens begins
    cases rest with
    | nil => cases begins
    | cons d rest => exact apart rest opens (by simpa using begins)

theorem join_splitAtCrlf (text : List Char) : join ['\r', '\n'] (splitAtCrlf text) = text := by
  fun_induction splitAtCrlf text with
  | case1 => rfl
  | case2 rest ih =>
    obtain ⟨piece, pieces, same⟩ := List.exists_cons_of_ne_nil (splitAtCrlf_ne_nil rest)
    rw [same] at ih ⊢
    rw [join, ih]
    · rfl
    · exact List.cons_ne_nil piece pieces
  | case3 c rest apart none ih => exact absurd none (splitAtCrlf_ne_nil rest)
  | case4 c rest apart piece pieces same ih =>
    rw [same, join_cons] at ih
    rw [join_cons, List.cons_append, ih]

theorem splitAtCrlf_of_free (free : ¬ ['\r', '\n'] <:+: text) : splitAtCrlf text = [text] := by
  induction text with
  | nil => rfl
  | cons c text ih =>
    refine splitAtCrlf_cons ?_ (ih fun inside => free (List.infix_cons inside))
    rintro rfl begins
    obtain ⟨rest, rfl⟩ := List.head?_eq_some_iff.mp begins
    exact free ⟨[], rest, rfl⟩

theorem free_of_mem_splitAtCrlf (member : piece ∈ splitAtCrlf text) : ¬ ['\r', '\n'] <:+: piece := by
  fun_induction splitAtCrlf text generalizing piece with
  | case1 =>
    obtain rfl := List.mem_singleton.mp member
    decide
  | case2 rest ih =>
    rcases List.mem_cons.mp member with rfl | member
    · decide
    · exact ih member
  | case3 c rest apart none ih => exact absurd none (splitAtCrlf_ne_nil rest)
  | case4 c rest apart first pieces same ih =>
    rw [same] at ih
    rcases List.mem_cons.mp member with rfl | member
    · rw [List.infix_cons_iff]
      rintro (begins | inside)
      -- The line would begin with the second half of a line end that the text has whole.
      · have whole : first ++ pieces.flatMap (['\r', '\n'] ++ ·) = rest := by
          rw [← join_cons, ← same, join_splitAtCrlf]
        obtain ⟨back, split⟩ := begins
        obtain ⟨rfl, rfl⟩ := List.cons.inj split
        exact apart _ rfl whole.symm
      · exact ih List.mem_cons_self inside
    · exact ih (List.mem_cons_of_mem _ member)

theorem splitAtCrlf_join (some : pieces ≠ []) (free : ∀ piece ∈ pieces, ¬ ['\r', '\n'] <:+: piece) :
    splitAtCrlf (join ['\r', '\n'] pieces) = pieces := by
  induction pieces with
  | nil => exact absurd rfl some
  | cons piece pieces ih =>
    obtain ⟨here, onward⟩ := List.forall_mem_cons.mp free
    cases pieces with
    | nil => exact splitAtCrlf_of_free here
    | cons next pieces =>
      have cut : join ['\r', '\n'] (piece :: next :: pieces) =
          piece ++ '\r' :: '\n' :: join ['\r', '\n'] (next :: pieces) := List.append_assoc ..
      rw [cut, splitAtCrlf_append, splitAtCrlf_of_free here, ih nofun onward]
      rfl

end InfraPins.Text
