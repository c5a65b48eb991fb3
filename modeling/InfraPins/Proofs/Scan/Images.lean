import InfraPins.Proofs.Hcl.Number
import InfraPins.Proofs.Scan.Modules
import InfraPins.Proofs.Scan.Pattern
import InfraPins.Proofs.Version.Characters

namespace InfraPins.Scan

open Text Hcl

/-- An image with its tag, up to a closing quote: both, and the text behind the quote. -/
private def taggedHere? (text : List Char) : Option ((List Char × List Char) × List Char) :=
  if (text.takeWhile isImageChar).head?.any Char.isAlphanum then
    (after? [':'] (text.dropWhile isImageChar)).bind fun rest =>
      (cutAt? '"' rest).bind fun found =>
        if found.1.isEmpty then none else some ((text.takeWhile isImageChar, found.1), found.2)
  else none

private def namesImage (word : List Char) : Bool :=
  imageSuffix.isSuffixOf word && decide (imageSuffix.length < word.length)

private theorem imageHere?_eq (text : List Char) :
    imageHere? text = if namesImage (text.takeWhile isWord) then
      (afterAssign? (text.dropWhile isWord)).bind fun rest => (after? ['"'] rest).bind fun inner =>
        (taggedHere? inner).map fun found =>
          (⟨text.takeWhile isWord, found.1.1, found.1.2⟩, found.2)
    else none := by
  show (if namesImage (text.takeWhile isWord) then _ else none) = _
  cases namesImage (text.takeWhile isWord) with
  | false => rfl
  | true =>
    rw [if_pos rfl, if_pos rfl]
    cases afterAssign? (text.dropWhile isWord) with
    | none => rfl
    | some rest =>
      simp only [Option.bind_eq_bind, Option.bind_some]
      cases after? ['"'] rest with
      | none => rfl
      | some inner =>
        simp only [Option.bind_some, taggedHere?, spanWhile]
        cases (inner.takeWhile isImageChar).head? with
        | none => rfl
        | some first =>
          simp only [Option.bind_some, Option.any_some]
          split
          · cases after? [':'] (inner.dropWhile isImageChar) with
            | none => rfl
            | some rest =>
              simp only [Option.bind_some, cutAt?_quote_eq]
              cases rest.dropWhile (· != '"') with
              | nil => rfl
              | cons c behind =>
                by_cases quote : c = '"'
                · subst quote
                  by_cases empty : rest.takeWhile (· != '"') = [] <;> simp [after?, empty]
                · simp [after?, Ne.symm quote, quote]
          · rfl

private theorem eq_of_taggedHere? {text image tag rest : List Char}
    (found : taggedHere? text = some ((image, tag), rest)) :
    text = image ++ ':' :: (tag ++ '"' :: rest) ∧ (∀ c ∈ image, isImageChar c = true) ∧
      image.head?.any Char.isAlphanum = true ∧ '"' ∉ tag ∧ tag ≠ [] := by
  unfold taggedHere? at found
  split at found
  · rename_i named
    obtain ⟨behind, colon, found⟩ := Option.bind_eq_some_iff.mp found
    obtain ⟨⟨value, last⟩, cut, found⟩ := Option.bind_eq_some_iff.mp found
    dsimp only at found
    split at found
    · cases found
    · rename_i filled
      obtain ⟨pair, rfl⟩ := Prod.mk.inj (Option.some.inj found)
      obtain ⟨rfl, rfl⟩ := Prod.mk.inj pair
      refine ⟨?_, List.all_eq_true.mp List.all_takeWhile, named, notMem_of_cutAt? cut, ?_⟩
      · have split := after?_eq_some_iff.mp colon
        rw [← eq_of_cutAt? cut, ← List.singleton_append, ← split, List.takeWhile_append_dropWhile]
      · simpa using filled
  · cases found

private theorem taggedHere?_of_eq {image tag rest : List Char}
    (named : ∀ c ∈ image, isImageChar c = true) (opened : image.head?.any Char.isAlphanum = true)
    (closed : '"' ∉ tag) (filled : tag ≠ []) :
    taggedHere? (image ++ ':' :: (tag ++ '"' :: rest)) = some ((image, tag), rest) := by
  have colon : isImageChar ':' = false := by decide
  have name : (image ++ ':' :: (tag ++ '"' :: rest)).takeWhile isImageChar = image := by
    simp [List.takeWhile_append_of_pos named, colon]
  have behind : (image ++ ':' :: (tag ++ '"' :: rest)).dropWhile isImageChar =
      ':' :: (tag ++ '"' :: rest) := by
    simp [List.dropWhile_append_of_pos named, colon]
  simp [taggedHere?, name, behind, opened, after?, cutAt?_of_notMem closed, filled]

private theorem taggedHere?_append (front : List Char) :
    ∃ found : Option ((List Char × List Char) × Option (List Char)), ∀ back,
      taggedHere? (front ++ '"' :: back) =
        found.map fun found => (found.1, (found.2.map (· ++ '"' :: back)).getD back) := by
  have quote : isImageChar '"' = false := by decide
  have colon : '"' ∉ [':'] := by decide
  have open' (back : List Char) : taggedHere? (front ++ '"' :: back) =
      if (front.takeWhile isImageChar).head?.any Char.isAlphanum then
        ((after? [':'] (front.dropWhile isImageChar)).map (· ++ '"' :: back)).bind fun rest =>
          (cutAt? '"' rest).bind fun found =>
            if found.1.isEmpty then none else some ((front.takeWhile isImageChar, found.1), found.2)
      else none := by
    rw [taggedHere?, takeWhile_append_cons _ _ quote, dropWhile_append_cons _ _ quote,
      after?_append_cons _ _ colon]
  simp only [open']
  split
  · cases after? [':'] (front.dropWhile isImageChar) with
    | none => exact ⟨none, fun _ => rfl⟩
    | some rest =>
      simp only [Option.map_some, Option.bind_some, cutAt?_append]
      cases cut : cutAt? '"' rest with
      | none =>
        by_cases empty : rest = []
        · exact ⟨none, fun _ => by simp [cutAt?, empty]⟩
        · exact ⟨some ((front.takeWhile isImageChar, rest), none), fun _ => by simp [cutAt?, empty]⟩
      | some found =>
        obtain ⟨value, behind⟩ := found
        by_cases empty : value = []
        · exact ⟨none, fun _ => by simp [empty]⟩
        · exact ⟨some ((front.takeWhile isImageChar, value), some behind), fun _ => by simp [empty]⟩
  · exact ⟨none, fun _ => rfl⟩

private theorem afterAssign?_append (front back : List Char) :
    afterAssign? (front ++ '"' :: back) = (afterAssign? front).map (· ++ '"' :: back) := by
  have quote : isBlank '"' = false := by decide
  rw [afterAssign?, afterAssign?, trimStart, trimStart, dropWhile_append_cons _ _ quote,
    after?_append_cons _ _ (by decide)]
  cases after? ['='] (front.dropWhile isBlank) with
  | none => rfl
  | some rest => simp [trimStart, dropWhile_append_cons _ _ quote]

private theorem imageHere?_append (front : List Char) :
    (∃ found : Option (ImageAssignment × Option (List Char)), ∀ back,
      imageHere? (front ++ '"' :: back) =
        found.map fun found => (found.1, (found.2.map (· ++ '"' :: back)).getD back)) ∨
      ∃ name, ∀ back, imageHere? (front ++ '"' :: back) =
        (taggedHere? back).map fun found => (⟨name, found.1.1, found.1.2⟩, found.2) := by
  have quote : isWord '"' = false := by decide
  have here (back : List Char) : imageHere? (front ++ '"' :: back) =
      if namesImage (front.takeWhile isWord) then
        ((afterAssign? (front.dropWhile isWord)).map (· ++ '"' :: back)).bind fun rest =>
          (after? ['"'] rest).bind fun inner => (taggedHere? inner).map fun found =>
            (⟨front.takeWhile isWord, found.1.1, found.1.2⟩, found.2)
      else none := by
    rw [imageHere?_eq, takeWhile_append_cons _ _ quote, dropWhile_append_cons _ _ quote,
      afterAssign?_append]
  simp only [here]
  split
  · cases afterAssign? (front.dropWhile isWord) with
    | none => exact .inl ⟨none, fun _ => rfl⟩
    | some rest =>
      cases rest with
      | nil => exact .inr ⟨_, fun _ => rfl⟩
      | cons c inner =>
        by_cases opens : c = '"'
        · subst opens
          obtain ⟨found, value⟩ := taggedHere?_append inner
          refine .inl ⟨found.map fun found => (⟨front.takeWhile isWord, found.1.1, found.1.2⟩, found.2),
            fun back => ?_⟩
          simp only [Option.map_some, Option.bind_some, List.cons_append, after?, beq_self_eq_true,
            if_true, value, Option.map_map]
          rfl
        · exact .inl ⟨none, fun _ => by simp [after?, Ne.symm opens]⟩
  · exact .inl ⟨none, fun _ => rfl⟩

private theorem imageHere?_of_notMem {front : List Char} (unassigned : '=' ∉ front)
    (back : List Char) : imageHere? (front ++ '"' :: back) = none := by
  have quote : isWord '"' = false := by decide
  have nothing : afterAssign? (front.dropWhile isWord) = none := by
    rw [afterAssign?, Option.map_eq_none_iff, after?_eq_none_iff]
    intro assigned
    exact unassigned ((List.dropWhile_suffix _).subset ((List.dropWhile_suffix _).subset
      (assigned.subset (List.mem_singleton_self _))))
  rw [imageHere?_eq, dropWhile_append_cons _ _ quote, afterAssign?_append, nothing]
  split <;> rfl

private theorem values_quoted {piece : List Char} (unassigned : '=' ∉ piece) (back : List Char) :
    values imageHere? (piece ++ '"' :: back) = values imageHere? back := by
  rw [values_append fun inner within _ =>
    imageHere?_of_notMem (fun member => unassigned (within.subset member)) back]
  exact values_of_none (imageHere?_of_notMem List.not_mem_nil back)

private theorem namesImage_iff {word : List Char} :
    namesImage word = true ↔ ∃ stem, stem ≠ [] ∧ word = stem ++ imageSuffix := by
  rw [namesImage, Bool.and_eq_true, decide_eq_true_eq, List.isSuffixOf_iff_suffix]
  constructor
  · rintro ⟨⟨stem, rfl⟩, longer⟩
    refine ⟨stem, ?_, rfl⟩
    rintro rfl
    exact absurd longer (Nat.lt_irrefl _)
  · rintro ⟨stem, some, rfl⟩
    refine ⟨List.suffix_append stem imageSuffix, ?_⟩
    have taken := List.length_pos_of_ne_nil some
    rw [List.length_append]
    omega

/-- The text of an image assignment, with what stands before and behind the mark. -/
def ImageAssignment.text (found : ImageAssignment) (gap gap' : List Char) : List Char :=
  found.variableName ++ (gap ++ '=' :: (gap' ++ '"' :: (found.image ++ ':' :: (found.tag ++ ['"']))))

/-- An assignment of an image with a tag to a variable that is named for an image. -/
structure ImageAssignment.Shaped (found : ImageAssignment) : Prop where
  word : ∀ c ∈ found.variableName, isWord c = true
  suffixed : ∃ stem, stem ≠ [] ∧ found.variableName = stem ++ imageSuffix
  named : ∀ c ∈ found.image, isImageChar c = true
  opened : found.image.head?.any Char.isAlphanum = true
  closed : '"' ∉ found.tag
  filled : found.tag ≠ []

/-- What stands at a place is an image assignment exactly when it has the shape and the text of one. -/
theorem imageHere?_eq_some_iff {text rest : List Char} {found : ImageAssignment} :
    imageHere? text = some (found, rest) ↔
      found.Shaped ∧ ∃ gap gap', (∀ c ∈ gap, isBlank c = true) ∧ (∀ c ∈ gap', isBlank c = true) ∧
        text = found.text gap gap' ++ rest := by
  rw [imageHere?_eq]
  constructor
  · intro here
    split at here
    · rename_i suffixed
      obtain ⟨assigned, assign, here⟩ := Option.bind_eq_some_iff.mp here
      obtain ⟨inner, opened, here⟩ := Option.bind_eq_some_iff.mp here
      obtain ⟨⟨⟨image, tag⟩, behind⟩, value, same⟩ := Option.map_eq_some_iff.mp here
      obtain ⟨rfl, rfl⟩ := Prod.mk.inj same
      obtain ⟨split, named, first, closed, filled⟩ := eq_of_taggedHere? value
      obtain ⟨gap, gap', blank, blank', assignment⟩ := eq_of_afterAssign? assign
      refine ⟨⟨List.all_eq_true.mp List.all_takeWhile, namesImage_iff.mp suffixed, named, first,
        closed, filled⟩, gap, gap', blank, blank', ?_⟩
      have quote := after?_eq_some_iff.mp opened
      calc
        text = text.takeWhile isWord ++ text.dropWhile isWord :=
          List.takeWhile_append_dropWhile.symm
        _ = _ := by
          rw [assignment, quote, split]
          simp [ImageAssignment.text]
    · cases here
  · rintro ⟨shaped, gap, gap', blank, blank', rfl⟩
    have ends : Version.Stops isWord (gap ++ '=' :: (gap' ++ '"' :: (found.image ++ ':' ::
        (found.tag ++ '"' :: rest)))) := by
      intro c first
      cases gap with
      | nil =>
        obtain rfl := Option.some.inj first
        decide
      | cons d gap =>
        obtain rfl := Option.some.inj first
        exact isWord_of_isBlank (blank _ List.mem_cons_self)
    have split := Version.spanWhile_append shaped.word ends
    obtain ⟨name, behind⟩ := Prod.mk.inj split
    have whole : found.text gap gap' ++ rest = found.variableName ++ (gap ++ '=' :: (gap' ++ '"' ::
        (found.image ++ ':' :: (found.tag ++ '"' :: rest)))) := by
      simp [ImageAssignment.text]
    rw [whole, name, behind, if_pos (namesImage_iff.mpr shaped.suffixed),
      afterAssign?_of_eq blank blank']
    simp [after?, taggedHere?_of_eq shaped.named shaped.opened shaped.closed shaped.filled]

/-- An image assignment ends with the image and its tag between quotes. -/
theorem eq_of_imageHere? {text rest : List Char} {found : ImageAssignment}
    (here : imageHere? text = some (found, rest)) :
    (∃ front, text = front ++ '"' :: (found.image ++ ':' :: (found.tag ++ '"' :: rest))) ∧
      (∀ c ∈ found.image, isImageChar c = true) ∧
      found.image.head?.any Char.isAlphanum = true ∧ '"' ∉ found.tag ∧ found.tag ≠ [] := by
  obtain ⟨shaped, gap, gap', -, -, rfl⟩ := imageHere?_eq_some_iff.mp here
  refine ⟨⟨found.variableName ++ gap ++ '=' :: gap', ?_⟩, shaped.named, shaped.opened, shaped.closed,
    shaped.filled⟩
  simp [ImageAssignment.text]

theorem suffix_of_imageHere? {text rest : List Char} {found : ImageAssignment}
    (here : imageHere? text = some (found, rest)) : rest <:+ text := by
  obtain ⟨_, gap, gap', -, -, rfl⟩ := imageHere?_eq_some_iff.mp here
  exact List.suffix_append _ rest

private theorem length_lt_of_imageHere? {text rest : List Char} {found : ImageAssignment}
    (here : imageHere? text = some (found, rest)) : rest.length < text.length := by
  obtain ⟨⟨front, split⟩, _⟩ := eq_of_imageHere? here
  simp only [split, List.length_append, List.length_cons]
  omega

/-- Image assignments before and after one tag is put in the place of another: the same, or of that
image and from the one tag to the other. -/
structure Retags (target old new : List Char) (first second : ImageAssignment) : Prop where
  name : second.variableName = first.variableName
  image : second.image = first.image
  tag : second.tag = first.tag ∨ first.image = target ∧ first.tag = old ∧ second.tag = new

private theorem Retags.refl {target old new : List Char} (found : ImageAssignment) :
    Retags target old new found found :=
  ⟨rfl, rfl, .inl rfl⟩

/-- A quoted image with its tag can give way to the same image with another tag. -/
theorem values_retag {image old new : List Char} (named : ∀ c ∈ image, isImageChar c = true)
    (opened : image.head?.any Char.isAlphanum = true) (filled : old ≠ [] ∧ new ≠ [])
    (closed : '"' ∉ old ∧ '"' ∉ new) (unassigned : '=' ∉ old ∧ '=' ∉ new)
    (before after : List Char) :
    List.Forall₂ (Retags image old new)
      (values imageHere? (before ++ '"' :: (image ++ ':' :: (old ++ '"' :: after))))
      (values imageHere? (before ++ '"' :: (image ++ ':' :: (new ++ '"' :: after)))) := by
  have unnamed : '=' ∉ image := fun member => by
    have char := named '=' member
    revert char
    decide
  have across {tag : List Char} (free : '=' ∉ tag) :
      values imageHere? (image ++ ':' :: (tag ++ '"' :: after)) = values imageHere? after := by
    have piece : '=' ∉ image ++ ':' :: tag := by simp [unnamed, free]
    rw [← values_quoted piece after]
    simp
  have same (found : List ImageAssignment) : List.Forall₂ (Retags image old new) found found :=
    List.forall₂_same.mpr fun value _ => .refl value
  induction size : before.length using Nat.strongRecOn generalizing before with
  | _ size ih =>
    subst size
    rcases imageHere?_append before with ⟨found, here⟩ | ⟨name, here⟩
    · cases found with
      | none =>
        have missed (back : List Char) : imageHere? (before ++ '"' :: back) = none := here back
        cases before with
        | nil =>
          simp only [List.nil_append] at missed ⊢
          rw [values_of_none (missed _), values_of_none (missed _), across unassigned.1,
            across unassigned.2]
          exact same _
        | cons c before =>
          simp only [List.cons_append] at missed ⊢
          rw [values_of_none (missed _), values_of_none (missed _)]
          exact ih _ (Nat.lt_succ_self _) before rfl
      | some pair =>
        obtain ⟨value, rest⟩ := pair
        cases rest with
        | none =>
          -- The value ends with the quote before the image.
          have taken (back : List Char) :
              imageHere? (before ++ '"' :: back) = some (value, back) := here back
          rw [values_of_some (taken _) (length_lt_of_imageHere? (taken _)),
            values_of_some (taken _) (length_lt_of_imageHere? (taken _)), across unassigned.1,
            across unassigned.2]
          exact .cons (.refl value) (same _)
        | some rest =>
          have taken (back : List Char) :
              imageHere? (before ++ '"' :: back) = some (value, rest ++ '"' :: back) := here back
          have shorter : rest.length < before.length := by
            have fewer := length_lt_of_imageHere? (taken [])
            simpa using fewer
          rw [values_of_some (taken _) (length_lt_of_imageHere? (taken _)),
            values_of_some (taken _) (length_lt_of_imageHere? (taken _))]
          exact .cons (.refl value) (ih _ shorter rest rfl)
    · -- The image is the value of an assignment.
      have taken {tag : List Char} (filled : tag ≠ []) (closed : '"' ∉ tag) :
          imageHere? (before ++ '"' :: (image ++ ':' :: (tag ++ '"' :: after))) =
            some (⟨name, image, tag⟩, after) := by
        rw [here, taggedHere?_of_eq named opened closed filled]
        rfl
      have first := taken filled.1 closed.1
      have second := taken filled.2 closed.2
      rw [values_of_some first (length_lt_of_imageHere? first),
        values_of_some second (length_lt_of_imageHere? second)]
      exact .cons ⟨rfl, rfl, .inr ⟨rfl, rfl, rfl⟩⟩ (same _)

def ImageAssignment.pin? (found : ImageAssignment) : Except Version.Fault (Option Pin) :=
  (Version.isSemanticLike found.tag).map fun semantic =>
    if semantic then
      some ⟨String.ofList found.variableName, String.ofList found.image, String.ofList found.tag⟩
    else none

theorem ImageAssignment.pin?_of_isSemanticLike {found : ImageAssignment}
    (semantic : Version.isSemanticLike found.tag = .ok true) :
    found.pin? = .ok (some ⟨String.ofList found.variableName, String.ofList found.image,
      String.ofList found.tag⟩) := by
  rw [pin?, semantic]
  rfl

/-- The dependencies of a text are the pins of its image assignments. -/
theorem images_pins (content : List Char) (path : String) :
    (images content path).map (List.map Dependency.pin) =
      ((values imageHere? content).mapM ImageAssignment.pin?).map (List.filterMap id) := by
  have each (found : Match ImageAssignment) : (imageDependency? path found).map
      (Option.map Dependency.pin) = found.value.pin? := by
    unfold imageDependency? ImageAssignment.pin?
    cases Version.isSemanticLike found.value.tag with
    | error => rfl
    | ok semantic => cases semantic <;> rfl
  have all : ((findAll imageHere? [] content).mapM (imageDependency? path)).map
      (List.map (Option.map Dependency.pin)) =
        (values imageHere? content).mapM ImageAssignment.pin? := by
    rw [← Result.mapM_map_result, values, List.mapM_map, funext each]
    rfl
  rw [← all, images]
  cases (findAll imageHere? [] content).mapM (imageDependency? path) with
  | error => rfl
  | ok found =>
    show Except.ok _ = Except.ok _
    rw [List.map_filterMap, List.filterMap_map]
    rfl

end InfraPins.Scan
