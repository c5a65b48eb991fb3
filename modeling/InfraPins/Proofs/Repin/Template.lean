import InfraPins.Proofs.Repin.Literal

namespace InfraPins.Repin

open Text Hcl

variable {repin : Repin}

/-- Texts that are left of a string, before and after. -/
inductive AlignedString (repin : Repin) : List Char → List Char → Prop where
  | before {front : List Char} (inside : front <:+ repin.before) :
      AlignedString repin (front ++ repin.mark :: repin.beyond repin.old)
        (front ++ repin.mark :: repin.beyond repin.new)
  | beyond : AlignedString repin (repin.beyond repin.old) (repin.beyond repin.new)
  | same {text : List Char} (inside : text <:+ repin.tail) : AlignedString repin text text

theorem Aligned.string {first second : List Char} (aligned : Aligned repin first second) :
    AlignedString repin first second := by
  cases aligned with
  | before inside => exact .before inside
  | same inside => exact .same inside

private theorem isPrefixOf_eq_isSome (opening text : List Char) :
    opening.isPrefixOf text = (after? opening text).isSome := by
  rw [Bool.eq_iff_iff, List.isPrefixOf_iff_prefix, Option.isSome_iff_exists]
  constructor
  · rintro ⟨rest, split⟩
    exact ⟨rest, after?_eq_some_iff.mpr split.symm⟩
  · rintro ⟨rest, found⟩
    exact ⟨rest, (after?_eq_some_iff.mp found).symm⟩

private theorem opensTemplate_append (front back : List Char) :
    opensTemplate (front ++ repin.mark :: back) = opensTemplate front := by
  have apart : ∀ opening ∈ [['$', '$', '{'], ['$', '{'], ['%', '%', '{'], ['%', '{']],
      repin.mark ∉ opening := by
    rcases repin.mark_cases with same | same <;> rw [same] <;> decide
  unfold opensTemplate
  rw [Bool.eq_iff_iff, List.any_eq_true, List.any_eq_true]
  refine exists_congr fun opening => and_congr_right fun member => ?_
  rw [isPrefixOf_eq_isSome, isPrefixOf_eq_isSome, after?_append_cons _ _ (apart opening member),
    Option.isSome_map]

private theorem plainCharacter?_cons (c : Char) (text : List Char) :
    plainCharacter? (c :: text) =
      if opensTemplate (c :: text) then none
      else if c = '"' then none
      else if c = '\\' then match text with
        | [] => none
        | d :: rest => if d = '\n' then none else some (['\\', d], rest)
      else some ([c], text) := by
  unfold plainCharacter?
  split
  · rfl
  · by_cases quote : c = '"'
    · simp [quote]
    · by_cases escape : c = '\\'
      · subst escape
        cases text with
        | nil => rfl
        | cons d rest => simp
      · simp only [quote, escape, if_false]
        split <;> simp_all

/-- Characters that a string takes as they stand, before and after. -/
def AlikeRun (repin : Repin) (first second : List Char × List Char) : Prop :=
  Renewed repin first.1 second.1 ∧ AlignedString repin first.2 second.2

private theorem escapedOpening?_aligned {front : List Char} (inside : front <:+ repin.before) :
    Option.Rel (AlikeRun repin)
      (escapedOpening? (front ++ repin.mark :: repin.beyond repin.old))
      (escapedOpening? (front ++ repin.mark :: repin.beyond repin.new)) := by
  refine rel_findSome? fun opening member => ?_
  have apart : repin.mark ∉ opening := by
    revert opening
    rcases repin.mark_cases with same | same <;> rw [same] <;> decide
  rw [after?_append_cons _ _ apart, after?_append_cons _ _ apart]
  cases opened : after? opening front with
  | none => exact .none
  | some rest =>
    have shorter : rest <:+ repin.before :=
      List.IsSuffix.trans ⟨opening, (after?_eq_some_iff.mp opened).symm⟩ inside
    have cut := cutAt?_aligned (show isReferenceChar '}' = false by decide) shorter
    simp only [Option.map_some, Option.bind_eq_bind, Option.bind_some]
    refine rel_bind cut fun _ _ here => ?_
    exact .some ⟨(Renewed.prepend opening here.1).append (.refl ['}']), here.2.string⟩

private theorem plainCharacter?_aligned {front : List Char} (inside : front <:+ repin.before) :
    Option.Rel (AlikeRun repin)
      (plainCharacter? (front ++ repin.mark :: repin.beyond repin.old))
      (plainCharacter? (front ++ repin.mark :: repin.beyond repin.new)) := by
  cases front with
  | nil =>
    rw [List.nil_append, List.nil_append, plainCharacter?_of_plain (isPlainChar_of_isReferenceChar repin.mark_isReferenceChar),
      plainCharacter?_of_plain (isPlainChar_of_isReferenceChar repin.mark_isReferenceChar)]
    exact .some ⟨.refl _, .beyond⟩
  | cons c front =>
    have shorter : front <:+ repin.before := (List.suffix_cons c front).trans inside
    have opens (back : List Char) := @opensTemplate_append repin (c :: front) back
    rw [List.cons_append, List.cons_append, plainCharacter?_cons, plainCharacter?_cons,
      ← List.cons_append, ← List.cons_append, opens, opens]
    split
    · exact .none
    split
    · exact .none
    split
    · cases front with
      | nil =>
        have inline : repin.mark ≠ '\n' := by
          rcases repin.mark_cases with same | same <;> rw [same] <;> decide
        rw [List.nil_append, List.nil_append]
        simp only [inline, if_false]
        exact .some ⟨.refl _, .beyond⟩
      | cons d front =>
        simp only [List.cons_append]
        split
        · exact .none
        · exact .some ⟨.refl _, .before ((List.suffix_cons d front).trans shorter)⟩
    · exact .some ⟨.refl _, .before shorter⟩

theorem run?_starts {first second : List Char} (starts : Aligned repin first second) :
    Option.Rel (fun found found' => AlikeRun repin found found' ∧ found'.2.length < second.length)
      (run? first) (run? second) := by
  refine rel_and ?_ fun _ found => (suffix_of_run? found).2
  cases starts with
  | before inside => exact rel_or (escapedOpening?_aligned inside) (plainCharacter?_aligned inside)
  | same inside =>
    cases found : run? first with
    | none => exact .none
    | some pair => exact .some ⟨.refl _, .same ((suffix_of_run? found).1.trans inside)⟩

/-- The first characters of texts up to the mark or behind the version are the same. -/
theorem Aligned.cons_cases {first second : List Char} (starts : Aligned repin first second) :
    (first = [] ∧ second = []) ∨
      (∃ c rest rest', first = c :: rest ∧ second = c :: rest' ∧ Aligned repin rest rest') ∨
      ∃ rest rest', first = repin.mark :: rest ∧ second = repin.mark :: rest' := by
  cases starts with
  | @before front inside =>
    cases front with
    | nil => exact .inr (.inr ⟨_, _, rfl, rfl⟩)
    | cons c front =>
      have shorter : front <:+ repin.before := (List.suffix_cons c front).trans inside
      exact .inr (.inl ⟨c, _, _, rfl, rfl, .before shorter⟩)
  | same inside =>
    cases first with
    | nil => exact .inl ⟨rfl, rfl⟩
    | cons c rest => exact .inr (.inl ⟨c, rest, rest, rfl, rfl, .same ((List.suffix_cons c rest).trans inside)⟩)

theorem AlignedString.cases {first second : List Char} (aligned : AlignedString repin first second) :
    Aligned repin first second ∨
      first = repin.beyond repin.old ∧ second = repin.beyond repin.new := by
  cases aligned with
  | before inside => exact .inl (.before inside)
  | beyond => exact .inr ⟨rfl, rfl⟩
  | same inside => exact .inl (.same inside)

/-- The text after the opening of a directive, and whether it has a strip mark. -/
def directiveStart (text : List Char) : Bool × List Char :=
  match after? ['~'] (text.dropWhile isGap) with
  | some rest => (true, rest.dropWhile isGap)
  | none => (false, text.dropWhile isGap)

theorem directiveStart_aligned {first second : List Char} (starts : Aligned repin first second) :
    (directiveStart first).1 = (directiveStart second).1 ∧
      Aligned repin (directiveStart first).2 (directiveStart second).2 := by
  have gapless {front : List Char} (inside : front <:+ repin.before) :
      front.dropWhile isGap <:+ repin.before := (List.dropWhile_suffix isGap).trans inside
  have refused : isGap repin.mark = false := by
    rcases repin.mark_cases with same | same <;> rw [same] <;> decide
  have apart : repin.mark ∉ ['~'] := by
    rcases repin.mark_cases with same | same <;> rw [same] <;> decide
  unfold directiveStart
  cases starts with
  | @before front inside =>
    rw [dropWhile_append_cons front _ refused, dropWhile_append_cons front _ refused,
      after?_append_cons _ _ apart, after?_append_cons _ _ apart]
    cases opened : after? ['~'] (front.dropWhile isGap) with
    | none => exact ⟨rfl, .before (gapless inside)⟩
    | some rest =>
      have shorter : rest <:+ repin.before :=
        List.IsSuffix.trans ⟨_, (after?_eq_some_iff.mp opened).symm⟩ (gapless inside)
      simp only [Option.map_some, dropWhile_append_cons _ _ refused]
      exact ⟨trivial, .before (gapless shorter)⟩
  | @same text inside =>
    refine ⟨rfl, .same ?_⟩
    split
    · rename_i rest opened
      exact (List.dropWhile_suffix _).trans <|
        List.IsSuffix.trans ⟨_, (after?_eq_some_iff.mp opened).symm⟩ <|
        (List.dropWhile_suffix _).trans inside
    · exact (List.dropWhile_suffix _).trans inside

theorem length_directiveStart_le (text : List Char) :
    (directiveStart text).2.length ≤ text.length := by
  have short := (List.dropWhile_suffix (l := text) isGap).length_le
  unfold directiveStart
  split
  · rename_i rest opened
    have shorter := (List.dropWhile_suffix (l := rest) isGap).length_le
    rw [after?_eq_some_iff.mp opened] at short
    simp only [List.cons_append, List.nil_append, List.length_cons] at short
    exact Nat.le_trans shorter (Nat.le_of_succ_le short)
  · exact short

theorem directiveWord?_aligned {first second : List Char} (starts : Aligned repin first second) :
    Option.Rel (fun found found' => found.1 = found'.1 ∧ Aligned repin found.2 found'.2)
      (directiveWord? first) (directiveWord? second) := by
  have apart (keyword : Keyword) : repin.mark ∉ keyword.text.toList := by
    rcases repin.mark_cases with same | same <;> rw [same] <;> cases keyword <;> decide
  refine rel_findSome? fun keyword _ => ?_
  cases starts with
  | before inside =>
    rw [after?_append_cons _ _ (apart keyword), after?_append_cons _ _ (apart keyword)]
    cases opened : after? keyword.text.toList _ with
    | none => exact .none
    | some rest =>
      have behind := (after?_eq_some_iff.mp opened).symm
      exact .some ⟨rfl, .before (List.IsSuffix.trans ⟨_, behind⟩ inside)⟩
  | same inside =>
    cases opened : after? keyword.text.toList first with
    | none => exact .none
    | some rest =>
      have behind := (after?_eq_some_iff.mp opened).symm
      exact .some ⟨rfl, .same (List.IsSuffix.trans ⟨_, behind⟩ inside)⟩

theorem length_le_of_directiveWord? {text rest : List Char} {word : Keyword}
    (found : directiveWord? text = some (word, rest)) : rest.length ≤ text.length := by
  obtain ⟨keyword, _, found⟩ := List.exists_of_findSome?_eq_some found
  obtain ⟨after, opened, same⟩ := Option.map_eq_some_iff.mp found
  obtain ⟨_, rfl⟩ := Prod.mk.inj same
  rw [after?_eq_some_iff.mp opened, List.length_append]
  exact Nat.le_add_left ..

end InfraPins.Repin
