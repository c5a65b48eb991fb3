import InfraPins.Proofs.Hcl.Token
import InfraPins.Scan.Pattern

namespace InfraPins.Text

/-- No letter or numeral is white space. -/
theorem isWord_of_isBlank {c : Char} (blank : isBlank c = true) : isWord c = false := by
  have codes : ∀ range ∈ blankRanges, ∀ offset < range.2 + 1 - range.1,
      isWord (Char.ofNat (range.1 + offset)) = false := by decide +kernel
  obtain ⟨range, member, within⟩ := List.any_eq_true.mp blank
  simp only [Bool.and_eq_true, decide_eq_true_eq] at within
  have here := codes range member (c.toNat - range.1) (by omega)
  rwa [Nat.add_sub_cancel' within.1, Char.ofNat_toNat] at here

theorem notMem_of_cutAt? {separator : Char} {text before rest : List Char}
    (cut : cutAt? separator text = some (before, rest)) : separator ∉ before := by
  induction text generalizing before with
  | nil => cases cut
  | cons c text ih =>
    by_cases same : c = separator
    · simp_all [cutAt?]
    · simp only [cutAt?, beq_iff_eq, same, if_false, Option.map_eq_some_iff] at cut
      obtain ⟨found, here, split⟩ := cut
      obtain ⟨rfl, rfl⟩ := Prod.mk.inj split
      simp [Ne.symm same, ih here]

theorem cutAt?_of_notMem {separator : Char} {front : List Char} (absent : separator ∉ front)
    (back : List Char) : cutAt? separator (front ++ separator :: back) = some (front, back) := by
  rw [cutAt?_append, cutAt?_eq_none_iff.mpr absent]
  simp [cutAt?]

theorem eq_before {separator : Char} {front front' back back' : List Char}
    (absent : separator ∉ front) (absent' : separator ∉ front')
    (same : front ++ separator :: back = front' ++ separator :: back') : front = front' := by
  have cut := cutAt?_of_notMem absent back
  rw [same, cutAt?_of_notMem absent' back'] at cut
  exact (Prod.mk.inj (Option.some.inj cut)).1.symm

theorem eq_behind {separator : Char} {front front' back back' : List Char}
    (absent : separator ∉ back) (absent' : separator ∉ back')
    (same : front ++ separator :: back = front' ++ separator :: back') : back = back' := by
  have turned := congrArg List.reverse same
  simp only [List.reverse_append, List.reverse_cons, List.append_assoc, List.singleton_append] at turned
  have reversed := eq_before (by simpa using absent) (by simpa using absent') turned
  simpa using congrArg List.reverse reversed

end InfraPins.Text

namespace InfraPins.Scan

open Text

section

variable {α : Type} {recognise : List Char → Option α} {front middle text : List Char}

/-- A text at no place of which anything is recognised, with another text behind it. -/
def Quiet (recognise : List Char → Option α) (front text : List Char) : Prop :=
  ∀ inner, inner <:+ front → inner ≠ [] → recognise (inner ++ text) = none

theorem quiet_nil : Quiet recognise [] text := by
  intro inner within some
  exact absurd (List.suffix_nil.mp within) some

theorem quiet_cons_iff {c : Char} : Quiet recognise (c :: front) text ↔
    recognise (c :: (front ++ text)) = none ∧ Quiet recognise front text := by
  constructor
  · intro quiet
    constructor
    · exact quiet (c :: front) List.suffix_rfl (List.cons_ne_nil c front)
    · intro inner within
      exact quiet inner (within.trans (List.suffix_cons c front))
  · rintro ⟨here, quiet⟩ inner within some
    rcases List.suffix_cons_iff.mp within with rfl | within
    · exact here
    · exact quiet inner within some

theorem Quiet.append (first : Quiet recognise front (middle ++ text))
    (second : Quiet recognise middle text) : Quiet recognise (front ++ middle) text := by
  induction front with
  | nil => exact second
  | cons c front ih =>
    obtain ⟨here, first⟩ := quiet_cons_iff.mp first
    rw [List.cons_append]
    refine quiet_cons_iff.mpr ⟨?_, ih first⟩
    rwa [List.append_assoc]

theorem Quiet.imp {β : Type} {other : List Char → Option β}
    (less : ∀ text, recognise text = none → other text = none) (quiet : Quiet recognise front text) :
    Quiet other front text := by
  intro inner within some
  exact less _ (quiet inner within some)

end

variable {α : Type} {recognise : List Char → Option (α × List Char)}

theorem findAll_nil (passed : List Char) : findAll recognise passed [] = [] := by
  rw [findAll.eq_def]
  cases recognise [] with
  | none => rfl
  | some pair => simp

/-- What is found here has the text passed so far before it, and the search goes on behind it. -/
theorem findAll_of_some {front rest : List Char} {value : α} (passed : List Char)
    (found : recognise (front ++ rest) = some (value, rest)) (taken : front ≠ []) :
    findAll recognise passed (front ++ rest) =
      ⟨passed.reverse, value⟩ :: findAll recognise (front.reverse ++ passed) rest := by
  have shorter : rest.length < (front ++ rest).length := by
    have some := List.length_pos_of_ne_nil taken
    rw [List.length_append]
    omega
  have consumed : (front ++ rest).take ((front ++ rest).length - rest.length) = front := by simp
  rw [findAll.eq_def]
  simp only [found, shorter, if_true, consumed]

theorem findAll_of_none {c : Char} {rest : List Char} (passed : List Char)
    (missed : recognise (c :: rest) = none) :
    findAll recognise passed (c :: rest) = findAll recognise (c :: passed) rest := by
  rw [findAll.eq_def]
  simp only [missed]

/-- The search goes over a quiet text. -/
theorem findAll_append {front text : List Char} (passed : List Char)
    (quiet : Quiet recognise front text) :
    findAll recognise passed (front ++ text) = findAll recognise (front.reverse ++ passed) text := by
  induction front generalizing passed with
  | nil => rfl
  | cons c front ih =>
    obtain ⟨missed, quiet⟩ := quiet_cons_iff.mp quiet
    rw [List.cons_append, findAll_of_none passed missed, List.reverse_cons, List.append_assoc]
    exact ih (c :: passed) quiet

/-- Every match stands in the text behind what is before it, if the search goes on in the text. -/
theorem place_of_mem_findAll {passed text : List Char} {found : Match α}
    (onward : ∀ here value rest, recognise here = some (value, rest) → rest <:+ here)
    (member : found ∈ findAll recognise passed text) :
    ∃ here rest, passed.reverse ++ text = found.before ++ here ∧
      recognise here = some (found.value, rest) := by
  fun_induction findAll recognise passed text with
  | case1 passed text value rest here shorter consumed ih =>
    rcases List.mem_cons.mp member with rfl | later
    · exact ⟨text, rest, rfl, here⟩
    · obtain ⟨there, behind, split, recognised⟩ := ih later
      have whole : consumed ++ rest = text := by
        obtain ⟨front, rfl⟩ := onward _ _ _ here
        simp [consumed]
      refine ⟨there, behind, ?_, recognised⟩
      rw [← split, ← whole]
      simp
  | case2 => cases member
  | case3 => cases member
  | case4 passed c rest missed ih =>
    obtain ⟨here, behind, split, recognised⟩ := ih member
    exact ⟨here, behind, by rw [← split]; simp, recognised⟩

theorem prefix_of_mem_findAll {passed text : List Char} {found : Match α}
    (member : found ∈ findAll recognise passed text) : passed.reverse <+: found.before := by
  fun_induction findAll recognise passed text with
  | case1 passed text value rest here shorter consumed ih =>
    rcases List.mem_cons.mp member with rfl | later
    · exact List.prefix_rfl
    · exact (List.prefix_append _ _).trans (by simpa using ih later)
  | case2 => cases member
  | case3 => cases member
  | case4 passed c rest missed ih =>
    exact (List.prefix_append _ _).trans (by simpa using ih member)

/-- Later matches have more text before them. -/
theorem pairwise_findAll (passed text : List Char) :
    (findAll recognise passed text).Pairwise fun first second => first.before <+: second.before := by
  fun_induction findAll recognise passed text with
  | case1 passed text value rest here shorter consumed ih =>
    apply List.Pairwise.cons
    · intro later member
      have behind := prefix_of_mem_findAll member
      rw [List.reverse_append] at behind
      exact (List.prefix_append _ _).trans behind
    · exact ih
  | case2 => exact .nil
  | case3 => exact .nil
  | case4 passed c rest missed ih => exact ih

/-- The values of all matches, from left to right. -/
def values (recognise : List Char → Option (α × List Char)) (text : List Char) : List α :=
  (findAll recognise [] text).map Match.value

private theorem map_value_findAll (passed text : List Char) :
    (findAll recognise passed text).map Match.value = values recognise text := by
  unfold values
  suffices same : ∀ other, (findAll recognise passed text).map Match.value =
      (findAll recognise other text).map Match.value from same []
  fun_induction findAll recognise passed text with
  | case1 passed text value rest here shorter consumed ih =>
    intro other
    rw [findAll.eq_def recognise other]
    simp only [here, shorter, if_true, List.map_cons]
    rw [ih]
  | case2 passed text value rest here long =>
    intro other
    rw [findAll.eq_def recognise other]
    simp only [here, long, if_false]
  | case3 passed missed =>
    intro other
    rw [findAll_nil]
  | case4 passed c rest missed ih =>
    intro other
    rw [findAll_of_none other missed]
    exact ih _

theorem values_of_some {text rest : List Char} {value : α}
    (found : recognise text = some (value, rest)) (shorter : rest.length < text.length) :
    values recognise text = value :: values recognise rest := by
  rw [values, findAll.eq_def]
  simp only [found, shorter, if_true, List.map_cons, map_value_findAll]

theorem values_of_none {c : Char} {rest : List Char} (missed : recognise (c :: rest) = none) :
    values recognise (c :: rest) = values recognise rest := by
  rw [values, findAll_of_none [] missed, map_value_findAll]

theorem values_nil : values recognise [] = [] := by
  rw [values, findAll_nil, List.map_nil]

/-- Every value is recognised at some place, if the search goes on in the text. -/
theorem exists_of_mem_values {text : List Char} {value : α}
    (onward : ∀ here value rest, recognise here = some (value, rest) → rest <:+ here)
    (member : value ∈ values recognise text) :
    ∃ here rest, here <:+ text ∧ recognise here = some (value, rest) := by
  obtain ⟨found, inside, rfl⟩ := List.mem_map.mp member
  obtain ⟨here, rest, split, recognised⟩ := place_of_mem_findAll onward inside
  exact ⟨here, rest, ⟨found.before, split.symm⟩, recognised⟩

theorem values_append {front text : List Char} (quiet : Quiet recognise front text) :
    values recognise (front ++ text) = values recognise text := by
  rw [values, findAll_append [] quiet, map_value_findAll]

/-- A text up to a quote and behind it is cut there. -/
theorem cutAt?_quote_eq (text : List Char) :
    cutAt? '"' text = match text.dropWhile (· != '"') with
      | '"' :: rest => some (text.takeWhile (· != '"'), rest)
      | _ => none := by
  induction text with
  | nil => rfl
  | cons c text ih =>
    by_cases quote : c = '"'
    · subst quote
      rfl
    · simp only [cutAt?, beq_iff_eq, quote, if_false, ih, List.dropWhile_cons, List.takeWhile_cons,
        bne_iff_ne, ne_eq, not_false_eq_true, if_true]
      split <;> rfl

theorem quotedHere?_eq (text : List Char) :
    quotedHere? text = (after? ['"'] text).bind fun inner =>
      (cutAt? '"' inner).bind fun found => if found.1.isEmpty then none else some found := by
  unfold quotedHere?
  refine congrArg _ (funext fun inner => ?_)
  rw [cutAt?_quote_eq]
  simp only [spanWhile]
  cases inner.dropWhile (· != '"') with
  | nil => rfl
  | cons c rest => by_cases quote : c = '"' <;> simp_all

theorem eq_of_quotedHere? {text value rest : List Char}
    (found : quotedHere? text = some (value, rest)) :
    text = '"' :: (value ++ '"' :: rest) ∧ '"' ∉ value := by
  rw [quotedHere?_eq] at found
  obtain ⟨inner, opened, found⟩ := Option.bind_eq_some_iff.mp found
  obtain ⟨⟨first, last⟩, cut, found⟩ := Option.bind_eq_some_iff.mp found
  dsimp only at found
  split at found
  · cases found
  · obtain ⟨rfl, rfl⟩ := Prod.mk.inj (Option.some.inj found)
    refine ⟨?_, notMem_of_cutAt? cut⟩
    rw [after?_eq_some_iff.mp opened, eq_of_cutAt? cut]
    rfl

private theorem suffix_of_quotedHere? {text value rest : List Char}
    (found : quotedHere? text = some (value, rest)) : rest <:+ text :=
  ⟨'"' :: (value ++ ['"']), by simp [(eq_of_quotedHere? found).1]⟩

private theorem suffix_of_after? {opening text rest : List Char}
    (found : after? opening text = some rest) : rest <:+ text :=
  ⟨opening, (after?_eq_some_iff.mp found).symm⟩

theorem sourceHere?_eq (text : List Char) :
    sourceHere? text = (after? "source".toList text).bind fun rest =>
      (afterAssign? rest).bind quotedHere? := rfl

/-- A mark with white space around it is read up to what is not blank. -/
theorem afterAssign?_of_eq {gap gap' : List Char} (blank : ∀ c ∈ gap, isBlank c = true)
    (blank' : ∀ c ∈ gap', isBlank c = true) (back : List Char) :
    afterAssign? (gap ++ '=' :: (gap' ++ '"' :: back)) = some ('"' :: back) := by
  have mark : isBlank '=' = false := by decide
  have quote : isBlank '"' = false := by decide
  have lead : trimStart (gap ++ '=' :: (gap' ++ '"' :: back)) = '=' :: (gap' ++ '"' :: back) := by
    rw [trimStart, List.dropWhile_append_of_pos blank]
    simp [mark]
  have behind : trimStart (gap' ++ '"' :: back) = '"' :: back := by
    rw [trimStart, List.dropWhile_append_of_pos blank']
    simp [quote]
  rw [afterAssign?, lead]
  simp [after?, behind]

theorem eq_of_afterAssign? {text rest : List Char} (found : afterAssign? text = some rest) :
    ∃ gap gap', (∀ c ∈ gap, isBlank c = true) ∧ (∀ c ∈ gap', isBlank c = true) ∧
      text = gap ++ '=' :: (gap' ++ rest) := by
  obtain ⟨marked, sign, rfl⟩ := Option.map_eq_some_iff.mp found
  have mark := after?_eq_some_iff.mp sign
  refine ⟨text.takeWhile isBlank, marked.takeWhile isBlank, List.all_eq_true.mp List.all_takeWhile,
    List.all_eq_true.mp List.all_takeWhile, ?_⟩
  calc
    text = text.takeWhile isBlank ++ trimStart text := List.takeWhile_append_dropWhile.symm
    _ = text.takeWhile isBlank ++ '=' :: marked := by rw [mark, List.singleton_append]
    _ = _ := by rw [trimStart, List.takeWhile_append_dropWhile]

private theorem suffix_of_afterAssign? {text rest : List Char}
    (found : afterAssign? text = some rest) : rest <:+ text := by
  obtain ⟨gap, gap', -, -, rfl⟩ := eq_of_afterAssign? found
  exact ⟨gap ++ '=' :: gap', by simp⟩

private theorem suffix_of_sourceHere? {text value rest : List Char}
    (found : sourceHere? text = some (value, rest)) : rest <:+ text := by
  rw [sourceHere?_eq] at found
  obtain ⟨behind, opened, found⟩ := Option.bind_eq_some_iff.mp found
  obtain ⟨quoted, assigned, found⟩ := Option.bind_eq_some_iff.mp found
  exact (suffix_of_quotedHere? found).trans
    ((suffix_of_afterAssign? assigned).trans (suffix_of_after? opened))

theorem sourceWithin?_cons (c : Char) (text : List Char) :
    sourceWithin? (c :: text) =
      (sourceHere? (c :: text)).or (if c = '}' then none else sourceWithin? text) := by
  unfold sourceWithin?
  cases sourceHere? (c :: text) with
  | none => by_cases closing : c = '}' <;> cases text <;> simp [closing, sourceWithin?]
  | some found => rfl

private theorem suffix_of_sourceWithin? {text value rest : List Char}
    (found : sourceWithin? text = some (value, rest)) : rest <:+ text := by
  induction text with
  | nil => cases found
  | cons c text ih =>
    rw [sourceWithin?_cons, Option.or_eq_some_iff] at found
    rcases found with here | ⟨_, within⟩
    · exact suffix_of_sourceHere? here
    · split at within
      · cases within
      · exact (ih within).trans (List.suffix_cons c text)

theorem headerHere?_eq (text : List Char) :
    headerHere? text = (after? "module".toList text).bind fun rest =>
      if (rest.takeWhile isBlank).isEmpty then none
      else quotedHere? (rest.dropWhile isBlank) := rfl

theorem blockHere?_eq (text : List Char) :
    blockHere? text = (headerHere? text).bind fun header =>
      (after? ['{'] (trimStart header.2)).bind fun body =>
        (sourceWithin? body).map fun found => ((header.1, found.1), found.2) := by
  unfold blockHere?
  cases headerHere? text with
  | none => rfl
  | some header =>
    simp only [Option.bind_eq_bind, Option.bind_some]
    cases after? ['{'] (trimStart header.2) with
    | none => rfl
    | some body =>
      rw [Option.bind_some, Option.bind_some]
      cases sourceWithin? body <;> rfl

/-- A block takes something. -/
theorem length_lt_of_blockHere? {text rest : List Char} {block : List Char × List Char}
    (found : blockHere? text = some (block, rest)) : rest.length < text.length := by
  rw [blockHere?_eq] at found
  obtain ⟨⟨name, behind⟩, header, found⟩ := Option.bind_eq_some_iff.mp found
  obtain ⟨body, opened, found⟩ := Option.bind_eq_some_iff.mp found
  obtain ⟨⟨source, last⟩, within, same⟩ := Option.map_eq_some_iff.mp found
  obtain ⟨-, rfl⟩ := Prod.mk.inj same
  rw [headerHere?_eq] at header
  obtain ⟨gapped, keyword, header⟩ := Option.bind_eq_some_iff.mp header
  split at header
  · cases header
  · have inside : last <:+ gapped := (suffix_of_sourceWithin? within).trans <|
      (suffix_of_after? opened).trans <| (List.dropWhile_suffix _).trans <|
      (suffix_of_quotedHere? header).trans (List.dropWhile_suffix _)
    have whole := congrArg List.length (after?_eq_some_iff.mp keyword)
    have short := inside.length_le
    simp only [List.length_append] at whole
    have taken : 0 < "module".toList.length := by decide
    show last.length < _
    omega

end InfraPins.Scan
