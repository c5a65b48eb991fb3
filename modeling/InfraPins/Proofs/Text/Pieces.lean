import InfraPins.Text.Search

namespace InfraPins.Text

variable {separator : Char}

theorem splitAt_of_notMem {piece : List Char} (absent : separator ∉ piece) :
    splitAt separator piece = [piece] := by
  induction piece with
  | nil => rfl
  | cons c piece ih =>
    have different : c ≠ separator := fun same => absent (by simp [same])
    simp [splitAt, different, ih fun member => absent (List.mem_cons_of_mem _ member)]

theorem splitAt_ne_nil (text : List Char) : splitAt separator text ≠ [] := by
  cases text with
  | nil => nofun
  | cons c text =>
    unfold splitAt
    split
    · nofun
    · split <;> nofun

theorem splitAt_append (front back : List Char) :
    splitAt separator (front ++ separator :: back) =
      splitAt separator front ++ splitAt separator back := by
  induction front with
  | nil => simp [splitAt]
  | cons c front ih =>
    obtain ⟨piece, pieces, same⟩ := List.exists_cons_of_ne_nil (@splitAt_ne_nil separator front)
    simp only [List.cons_append, splitAt, ih, same]
    split <;> rfl

/-- More text that is free of the character makes the last piece longer. -/
theorem splitAt_append_free (text : List Char) {more : List Char} (free : separator ∉ more) :
    ∃ pieces last, splitAt separator text = pieces ++ [last] ∧
      splitAt separator (text ++ more) = pieces ++ [last ++ more] := by
  induction text with
  | nil => exact ⟨[], [], rfl, splitAt_of_notMem free⟩
  | cons c text ih =>
    obtain ⟨pieces, last, split, split'⟩ := ih
    by_cases cut : c = separator
    · exact ⟨[] :: pieces, last, by simp [splitAt, cut, split], by simp [splitAt, cut, split']⟩
    · cases pieces with
      | nil => exact ⟨[], c :: last, by simp [splitAt, cut, split], by simp [splitAt, cut, split']⟩
      | cons piece pieces =>
        exact ⟨(c :: piece) :: pieces, last, by simp [splitAt, cut, split], by simp [splitAt, cut, split']⟩

theorem join_splitAt (text : List Char) : join [separator] (splitAt separator text) = text := by
  induction text with
  | nil => rfl
  | cons c text ih =>
    obtain ⟨piece, pieces, same⟩ := List.exists_cons_of_ne_nil (@splitAt_ne_nil separator text)
    rw [same] at ih
    by_cases cut : c = separator
    · simp [splitAt, cut, same, join, ih]
    · cases pieces <;> simp [splitAt, cut, same, join] at ih ⊢ <;> exact ih

theorem splitAt_join {pieces : List (List Char)} (nonempty : pieces ≠ [])
    (free : ∀ piece ∈ pieces, separator ∉ piece) :
    splitAt separator (join [separator] pieces) = pieces := by
  induction pieces with
  | nil => exact absurd rfl nonempty
  | cons piece pieces ih =>
    obtain ⟨here, onward⟩ := List.forall_mem_cons.mp free
    cases pieces with
    | nil => exact splitAt_of_notMem here
    | cons next pieces =>
      have cut : join [separator] (piece :: next :: pieces) =
          piece ++ separator :: join [separator] (next :: pieces) := List.append_assoc ..
      rw [cut, splitAt_append, splitAt_of_notMem here, ih nofun onward]
      rfl

theorem mem_join {pieces : List (List Char)} {c : Char} (member : c ∈ join [separator] pieces) :
    c = separator ∨ ∃ piece ∈ pieces, c ∈ piece := by
  induction pieces with
  | nil => cases member
  | cons piece pieces ih =>
    cases pieces with
    | nil => exact .inr ⟨piece, List.mem_cons_self, member⟩
    | cons next pieces =>
      rw [join] at member
      · rcases List.mem_append.mp member with member | member
        · rcases List.mem_append.mp member with member | member
          · exact .inr ⟨piece, List.mem_cons_self, member⟩
          · exact .inl (List.mem_singleton.mp member)
        · rcases ih member with same | ⟨other, inside, member⟩
          · exact .inl same
          · exact .inr ⟨other, List.mem_cons_of_mem _ inside, member⟩
      · nofun

/-- A character of a piece is one of the text, and not the one that it is cut at. -/
theorem mem_of_mem_splitAt {text piece : List Char} {c : Char} (member : piece ∈ splitAt separator text)
    (inside : c ∈ piece) : c ∈ text ∧ c ≠ separator := by
  induction text generalizing piece with
  | nil =>
    obtain rfl := List.mem_singleton.mp member
    cases inside
  | cons d text ih =>
    obtain ⟨first, others, same⟩ := List.exists_cons_of_ne_nil (@splitAt_ne_nil separator text)
    rw [same] at ih
    have onward {piece : List Char} (member : piece ∈ first :: others) (inside : c ∈ piece) :
        c ∈ d :: text ∧ c ≠ separator :=
      ⟨List.mem_cons_of_mem d (ih member inside).1, (ih member inside).2⟩
    by_cases cut : d = separator
    · have split : splitAt separator (d :: text) = [] :: first :: others := by
        simp [splitAt, cut, same]
      rw [split] at member
      rcases List.mem_cons.mp member with rfl | member
      · cases inside
      · exact onward member inside
    · have split : splitAt separator (d :: text) = (d :: first) :: others := by
        simp [splitAt, cut, same]
      rw [split] at member
      rcases List.mem_cons.mp member with rfl | member
      · rcases List.mem_cons.mp inside with rfl | inside
        · exact ⟨List.mem_cons_self, cut⟩
        · exact onward List.mem_cons_self inside
      · exact onward (List.mem_cons_of_mem _ member) inside

end InfraPins.Text
