import InfraPins.Proofs.Patch.Edit
import InfraPins.Proofs.Patch.Quoted
import Mathlib.Data.List.Infix

namespace InfraPins.Patch

open Text Scan Source

variable {name version text rest : List Char}

theorem eq_of_refHere? {ends : Option Char → Bool} {place : Place}
    (found : refHere? version ends text = some place) :
    ∃ mark, (mark = '?' ∨ mark = '&') ∧ place.before = mark :: refKey ∧
      text = mark :: (refKey ++ (version ++ place.after)) ∧ ends place.after.head? = true := by
  cases text with
  | nil => cases found
  | cons mark text =>
    simp only [refHere?, Bool.or_eq_true, beq_iff_eq] at found
    split at found
    · rename_i marked
      obtain ⟨valued, key, found⟩ := Option.bind_eq_some_iff.mp found
      obtain ⟨after, value, found⟩ := Option.bind_eq_some_iff.mp found
      split at found
      · rename_i ended
        obtain rfl := Option.some.inj found
        refine ⟨mark, marked, rfl, ?_, ended⟩
        rw [after?_eq_some_iff.mp key, after?_eq_some_iff.mp value]
      · cases found
    · cases found

theorem refHere?_of_eq {ends : Option Char → Bool} {mark : Char} {after : List Char}
    (marked : mark = '?' ∨ mark = '&') (ended : ends after.head? = true) :
    refHere? version ends (mark :: (refKey ++ (version ++ after))) =
      some ⟨mark :: refKey, after⟩ := by
  have key : after? refKey (refKey ++ (version ++ after)) = some (version ++ after) :=
    after?_eq_some_iff.mpr rfl
  have value : after? version (version ++ after) = some after := after?_eq_some_iff.mpr rfl
  simp [refHere?, marked, key, value, ended]

theorem eq_of_refInString? {place : Place} (found : refInString? version text = some place) :
    ∃ front mark, (mark = '?' ∨ mark = '&') ∧ '"' ∉ front ∧ place.before = front ++ mark :: refKey ∧
      text = front ++ mark :: (refKey ++ (version ++ place.after)) ∧
      place.after.head?.any endsRef = true := by
  induction text generalizing place with
  | nil => cases found
  | cons c text ih =>
    unfold refInString? at found
    split at found
    · rename_i here
      obtain rfl := Option.some.inj found
      obtain ⟨mark, marked, before, split, ended⟩ := eq_of_refHere? here
      exact ⟨[], mark, marked, by simp, before, split, ended⟩
    · split at found
      · cases found
      · rename_i unquoted
        obtain ⟨later, within, rfl⟩ := Option.map_eq_some_iff.mp found
        obtain ⟨front, mark, marked, bare, before, split, ended⟩ := ih within
        refine ⟨c :: front, mark, marked, ?_, ?_, ?_, ended⟩
        · have other : '"' ≠ c := fun same => unquoted (by simp [← same])
          simp [other, bare]
        · simp [Place.behind, before]
        · rw [split, List.cons_append]
          rfl

private theorem refInString?_isSome {front after : List Char} {mark : Char}
    (marked : mark = '?' ∨ mark = '&') (bare : '"' ∉ front)
    (ended : after.head?.any endsRef = true) :
    (refInString? version (front ++ mark :: (refKey ++ (version ++ after)))).isSome = true := by
  induction front with
  | nil =>
    rw [List.nil_append]
    unfold refInString?
    rw [refHere?_of_eq marked ended]
    rfl
  | cons c front ih =>
    have other : c ≠ '"' := fun same => bare (by simp [same])
    have inner := ih fun member => bare (List.mem_cons_of_mem _ member)
    rw [List.cons_append]
    unfold refInString?
    split
    · rfl
    · simpa [other] using inner

/-- What follows the opening quote of a source that is assigned here. -/
def openSource? (text : List Char) : Option (List Char) :=
  (after? "source".toList text).bind fun rest => (afterAssign? rest).bind (after? ['"'])

private theorem sourceHere?_eq_openSource? (text : List Char) :
    sourceHere? text = (openSource? text).bind fun inner =>
      (cutAt? '"' inner).bind fun found => if found.1.isEmpty then none else some found := by
  rw [sourceHere?_eq, openSource?]
  cases after? "source".toList text with
  | none => rfl
  | some rest => cases opened : afterAssign? rest <;> simp [opened, quotedHere?_eq]

theorem sourceRefHere?_of_none (closed : openSource? text = none) :
    sourceRefHere? version text = none := by
  cases found : sourceRefHere? version text with
  | none => rfl
  | some place =>
    obtain ⟨rest, keyword, found⟩ := Option.bind_eq_some_iff.mp found
    obtain ⟨behind, assigned, found⟩ := Option.bind_eq_some_iff.mp found
    obtain ⟨inner, opened, _⟩ := Option.bind_eq_some_iff.mp found
    have assign : afterAssign? rest = some (trimStart behind) := by
      rw [afterAssign?]
      exact Option.map_eq_some_iff.mpr ⟨behind, assigned, rfl⟩
    have here : openSource? text = some inner := by
      rw [openSource?, keyword, Option.bind_some, assign, Option.bind_some]
      exact opened
    rw [closed] at here
    cases here

theorem sourceRefHere?_of_some {inner : List Char} (opened : openSource? text = some inner) :
    ∃ lead, '"' ∉ lead ∧ text = lead ++ '"' :: inner ∧
      sourceRefHere? version text =
        (refInString? version inner).map (·.behind (lead ++ ['"'])) := by
  obtain ⟨rest, keyword, opened⟩ := Option.bind_eq_some_iff.mp opened
  obtain ⟨quoted, assign, opened⟩ := Option.bind_eq_some_iff.mp opened
  obtain ⟨behind, assigned, rfl⟩ := Option.map_eq_some_iff.mp assign
  have unquoted (gap : List Char) : '"' ∉ gap.takeWhile isBlank := by
    intro member
    have blank := List.all_eq_true.mp List.all_takeWhile _ member
    revert blank
    decide
  refine ⟨"source".toList ++ rest.takeWhile isBlank ++ '=' :: behind.takeWhile isBlank, ?_, ?_, ?_⟩
  · have word : '"' ∉ "source".toList := by decide
    simp [unquoted]
  · have gap := List.takeWhile_append_dropWhile (p := isBlank) (l := rest)
    have gap' := List.takeWhile_append_dropWhile (p := isBlank) (l := behind)
    have here : rest.dropWhile isBlank = ['='] ++ behind := after?_eq_some_iff.mp assigned
    have there : behind.dropWhile isBlank = ['"'] ++ inner := after?_eq_some_iff.mp opened
    have split : text = "source".toList ++ rest := after?_eq_some_iff.mp keyword
    calc
      text = "source".toList ++ (rest.takeWhile isBlank ++ (['='] ++ behind)) := by
        rw [split, ← here, gap]
      _ = "source".toList ++ (rest.takeWhile isBlank ++
            (['='] ++ (behind.takeWhile isBlank ++ (['"'] ++ inner)))) := by
        rw [← there, gap']
      _ = _ := by simp
  · unfold sourceRefHere?
    have assigned' : after? ['='] (rest.dropWhile isBlank) = some behind := assigned
    have opened' : after? ['"'] (behind.dropWhile isBlank) = some inner := opened
    simp only [keyword, Option.bind_eq_bind, Option.bind_some, spanWhile, assigned', opened']
    cases refInString? version inner <;> simp [Place.behind]

private theorem sourceRefHere?_of_missed {c : Char} (missed : sourceHere? (c :: text) = none)
    (closes : 2 ≤ text.count '"') : sourceRefHere? version (c :: text) = none := by
  rw [sourceHere?_eq_openSource?] at missed
  cases opened : openSource? (c :: text) with
  | none => exact sourceRefHere?_of_none opened
  | some inner =>
    obtain ⟨lead, unquoted, split, refs⟩ := @sourceRefHere?_of_some version _ _ opened
    rw [refs, Option.map_eq_none_iff]
    cases found : refInString? version inner with
    | none => rfl
    | some place =>
      exfalso
      obtain ⟨front, mark, marked, bare, _, whole, _⟩ := eq_of_refInString? found
      have member : '"' ∈ inner := by
        have quotes := congrArg (List.count '"') split
        rw [List.count_append, List.count_eq_zero.mpr unquoted, List.count_cons_self] at quotes
        have fewer := (List.sublist_cons_self c text).count_le '"'
        exact List.count_pos_iff.mp (by omega)
      cases cut : cutAt? '"' inner with
      | none => exact cutAt?_eq_none_iff.mp cut member
      | some found =>
        obtain ⟨value, after⟩ := found
        have empty : value = [] := by
          rw [opened, Option.bind_some, cut, Option.bind_some] at missed
          by_contra filled
          simp [filled] at missed
        have starts := eq_of_cutAt? cut
        rw [empty, whole] at starts
        cases front with
        | nil =>
          have same := (List.cons.inj starts).1
          rcases marked with rfl | rfl <;> revert same <;> decide
        | cons d front =>
          exact bare (by simp [(List.cons.inj starts).1])

theorem sourceRefWithin?_cons (c : Char) (text : List Char) :
    sourceRefWithin? version (c :: text) = (sourceRefHere? version (c :: text)).or
      (if c = '}' then none else (sourceRefWithin? version text).map (·.behind [c])) := by
  conv_lhs => unfold sourceRefWithin?
  cases sourceRefHere? version (c :: text) <;> simp

private theorem refInString?_address (address : Address) (rest : List Char) :
    ∃ front mark closing, (mark = '?' ∨ mark = '&') ∧
      address.text = front ++ mark :: (refKey ++ (address.version ++ closing)) ∧
      refInString? address.version (address.text ++ '"' :: rest) =
        some ⟨front ++ mark :: refKey, closing ++ '"' :: rest⟩ := by
  obtain ⟨front, mark, marked, opened⟩ := address.opening_eq_append
  have whole : address.text ++ '"' :: rest = front ++ mark :: (refKey ++ (address.version ++
      (Address.trail address.after ++ '"' :: rest))) := by
    simp [Address.text, opened]
  have bare : '"' ∉ front := by
    intro member
    apply address.quote_notMem_text
    simp [Address.text, opened, member]
  have ended : (Address.trail address.after ++ '"' :: rest).head?.any endsRef = true := by
    cases address.after <;> simp [Address.trail, endsRef]
  have present := @refInString?_isSome address.version _ _ mark marked bare ended
  rw [← whole] at present
  obtain ⟨⟨before, after⟩, found⟩ := Option.isSome_iff_exists.mp present
  obtain ⟨front', mark', marked', bare', rfl, split, _⟩ := eq_of_refInString? found
  have taken : address.text ++ '"' :: rest =
      (front' ++ mark' :: (refKey ++ address.version)) ++ after := by
    rw [split]
    simp
  -- Up to the version there is no quote, so that the version stands before the closing one.
  have unquoted : '"' ∉ front' ++ mark' :: (refKey ++ address.version) := by
    intro member
    simp only [List.mem_append, List.mem_cons] at member
    rcases member with member | same | member | member
    · exact bare' member
    · rcases marked' with rfl | rfl <;> revert same <;> decide
    · revert member
      decide
    · have pinned := address.pinned '"' member
      rw [not_isVersionChar_quote] at pinned
      cases pinned
  rcases List.append_eq_append_iff.mp taken with ⟨more, ends, behind⟩ | ⟨closing, ends, rfl⟩
  · cases more with
    | nil =>
      obtain rfl : '"' :: rest = after := behind
      exact ⟨front', mark', [], marked', by simpa using ends.symm, found⟩
    | cons c more =>
      obtain ⟨rfl, _⟩ := List.cons.inj behind
      exact absurd (by simp [ends]) unquoted
  · exact ⟨front', mark', closing, marked', by simpa using ends, found⟩

theorem sourceRefWithin?_address {address : Address} {body rest : List Char}
    (read : sourceWithin? body = some (address.text, rest)) :
    ∃ outer front mark closing, (mark = '?' ∨ mark = '&') ∧
      address.text = front ++ mark :: (refKey ++ (address.version ++ closing)) ∧
      body = outer ++ '"' :: (address.text ++ '"' :: rest) ∧
      sourceRefWithin? address.version body =
        some ⟨outer ++ '"' :: (front ++ mark :: refKey), closing ++ '"' :: rest⟩ := by
  induction body with
  | nil => cases read
  | cons c body ih =>
    rw [sourceWithin?_cons, Option.or_eq_some_iff] at read
    rcases read with here | ⟨missed, within⟩
    · rw [sourceHere?_eq_openSource?] at here
      obtain ⟨inner, opened, here⟩ := Option.bind_eq_some_iff.mp here
      obtain ⟨⟨value, after⟩, cut, here⟩ := Option.bind_eq_some_iff.mp here
      split at here
      · cases here
      · obtain ⟨rfl, rfl⟩ := Prod.mk.inj (Option.some.inj here)
        obtain rfl := eq_of_cutAt? cut
        obtain ⟨lead, _, split, refs⟩ := @sourceRefHere?_of_some address.version _ _ opened
        obtain ⟨front, mark, closing, marked, text, found⟩ := refInString?_address address after
        refine ⟨lead, front, mark, closing, marked, text, split, ?_⟩
        rw [sourceRefWithin?_cons, refs, found]
        simp [Place.behind]
    · split at within
      · cases within
      · rename_i unclosed
        obtain ⟨outer, front, mark, closing, marked, text, split, found⟩ := ih within
        refine ⟨c :: outer, front, mark, closing, marked, text, by rw [split]; rfl, ?_⟩
        have closes : 2 ≤ body.count '"' := by simp [split]; omega
        have nothing : sourceRefHere? address.version (c :: body) = none :=
          sourceRefHere?_of_missed missed closes
        rw [sourceRefWithin?_cons, nothing, Option.none_or, if_neg unclosed, found]
        simp [Place.behind]

/-- The body of a module block with a name whose header stands here. -/
def bodyHere? (name text : List Char) : Option (List Char) :=
  (after? "module".toList text).bind fun rest =>
    if (rest.takeWhile isBlank).isEmpty then none
    else (after? ('"' :: name ++ ['"']) (rest.dropWhile isBlank)).bind fun rest =>
      after? ['{'] (rest.dropWhile isBlank)

private theorem blockRefHere?_eq (name version text : List Char) (previous : Option Char) :
    blockRefHere? name version previous text = (after? "module".toList text).bind fun rest =>
      if (rest.takeWhile isBlank).isEmpty then none
      else (after? ('"' :: name ++ ['"']) (rest.dropWhile isBlank)).bind fun behind =>
        (after? ['{'] (behind.dropWhile isBlank)).bind fun body =>
          (sourceRefWithin? version body).bind fun place =>
            some (place.behind ("module".toList ++ rest.takeWhile isBlank ++ ('"' :: name ++ ['"']) ++
              behind.takeWhile isBlank ++ ['{'])) := rfl

theorem blockRefHere?_of_some {body : List Char} {previous : Option Char}
    (here : bodyHere? name text = some body) :
    ∃ header, text = header ++ body ∧ blockRefHere? name version previous text =
      (sourceRefWithin? version body).map (·.behind header) := by
  obtain ⟨rest, keyword, here⟩ := Option.bind_eq_some_iff.mp here
  split at here
  · cases here
  · rename_i gapped
    obtain ⟨behind, label, opened⟩ := Option.bind_eq_some_iff.mp here
    refine ⟨"module".toList ++ rest.takeWhile isBlank ++ ('"' :: name ++ ['"']) ++
      behind.takeWhile isBlank ++ ['{'], ?_, ?_⟩
    · have gap := List.takeWhile_append_dropWhile (p := isBlank) (l := rest)
      have gap' := List.takeWhile_append_dropWhile (p := isBlank) (l := behind)
      calc
        text = "module".toList ++ (rest.takeWhile isBlank ++ (('"' :: name ++ ['"']) ++ behind)) := by
          rw [after?_eq_some_iff.mp keyword, ← after?_eq_some_iff.mp label, gap]
        _ = "module".toList ++ (rest.takeWhile isBlank ++ (('"' :: name ++ ['"']) ++
              (behind.takeWhile isBlank ++ (['{'] ++ body)))) := by
          rw [← after?_eq_some_iff.mp opened, gap']
        _ = _ := by simp
    · rw [blockRefHere?_eq, keyword, Option.bind_some, if_neg gapped, label, Option.bind_some, opened,
        Option.bind_some]
      cases sourceRefWithin? version body <;> rfl

theorem blockRefHere?_of_none {previous : Option Char} (missed : bodyHere? name text = none) :
    blockRefHere? name version previous text = none := by
  rw [blockRefHere?_eq]
  cases keyword : after? "module".toList text with
  | none => rfl
  | some rest =>
    rw [bodyHere?, keyword, Option.bind_some] at missed
    rw [Option.bind_some]
    split
    · rfl
    · rename_i gapped
      rw [if_neg gapped] at missed
      cases label : after? ('"' :: name ++ ['"']) (rest.dropWhile isBlank) with
      | none => rfl
      | some behind =>
        rw [label, Option.bind_some] at missed
        rw [Option.bind_some, missed, Option.bind_none]

private theorem blockRefHere?_address {body rest : List Char} {previous : Option Char}
    {address : Address} (here : bodyHere? name text = some body)
    (read : sourceWithin? body = some (address.text, rest)) :
    ∃ outer front mark closing, (mark = '?' ∨ mark = '&') ∧
      address.text = front ++ mark :: (refKey ++ (address.version ++ closing)) ∧
      text = outer ++ '"' :: (address.text ++ '"' :: rest) ∧
      blockRefHere? name address.version previous text =
        some ⟨outer ++ '"' :: (front ++ mark :: refKey), closing ++ '"' :: rest⟩ := by
  obtain ⟨header, split, refs⟩ := @blockRefHere?_of_some name address.version _ _ previous here
  obtain ⟨outer, front, mark, closing, marked, whole, inside, found⟩ := sourceRefWithin?_address read
  refine ⟨header ++ outer, front, mark, closing, marked, whole, ?_, ?_⟩
  · rw [split, inside, List.append_assoc]
  · rw [refs, found]
    simp [Place.behind]

section Quoted

variable {outer front closing rest version : List Char} {mark : Char} {address : Address}

private theorem bare_of_split
    (whole : address.text = front ++ mark :: (refKey ++ (address.version ++ closing))) :
    '"' ∉ front ∧ '"' ∉ closing := by
  have absent := address.quote_notMem_text
  rw [whole] at absent
  simp only [List.mem_append, List.mem_cons, not_or] at absent
  exact ⟨absent.1, absent.2.2.2.2⟩

private theorem getLast?_of_split (marked : mark = '?' ∨ mark = '&')
    (whole : address.text = front ++ mark :: (refKey ++ (address.version ++ closing))) :
    (outer ++ '"' :: front).getLast? ≠ some '&' := by
  have inner := address.getLast?_of_opening (address.eq_opening marked whole).1
  rcases List.eq_nil_or_concat front with rfl | ⟨front, d, rfl⟩
  · simp
  · rw [List.concat_eq_append] at inner ⊢
    rw [← List.cons_append, ← List.append_assoc, List.getLast?_concat]
    rwa [List.getLast?_concat] at inner

private theorem closing_of_split (marked : mark = '?' ∨ mark = '&')
    (whole : address.text = front ++ mark :: (refKey ++ (address.version ++ closing))) :
    closing = Address.trail address.after :=
  List.append_cancel_left (address.eq_opening marked whole).2

private theorem edits_of_quoted (marked : mark = '?' ∨ mark = '&')
    (whole : address.text = front ++ mark :: (refKey ++ (address.version ++ closing)))
    (pinned : ∀ c ∈ version, isVersionChar c = true) (versioned : version ≠ []) :
    ∃ repin, Repin.Unlike repin.tail ∧
      Edits repin (outer ++ '"' :: (address.text ++ '"' :: rest))
        (Place.fill ⟨outer ++ '"' :: (front ++ mark :: refKey), closing ++ '"' :: rest⟩ version)
        address.bare address.version version := by
  have trailing := closing_of_split marked whole
  refine ⟨repinOf address (outer ++ '"' :: front) mark version (closing ++ '"' :: rest)
    (marked.imp id fun amp => ⟨amp, getLast?_of_split marked whole⟩) versioned pinned, ?_, ?_⟩
  · show Repin.Unlike (closing ++ '"' :: rest)
    rw [trailing]
    cases address.after with
    | nil => simp [Repin.Unlike, Address.trail]; decide
    | cons p after => simp [Repin.Unlike, Address.trail]; decide
  constructor
  case before_eq => simp [repinOf, Repin.text, Repin.beyond, whole]
  case after_eq => simp [repinOf, Repin.text, Repin.beyond, Place.fill]
  case old_eq | new_eq => rfl
  case filled => exact address.pinned
  case ends =>
    show ∀ c ∈ (closing ++ '"' :: rest).head?, isVersionChar c = false
    rw [trailing]
    cases address.after with
    | nil => simp [Address.trail, not_isVersionChar_quote]
    | cons p after => simp [Address.trail]; decide
  case touches =>
    intro other front' closing' inside closes here
    have bare := bare_of_split whole
    have absent := other.quote_notMem_text
    rw [here] at absent
    simp only [Repin.pinnedAt, List.mem_append, List.mem_cons, not_or] at absent
    obtain ⟨outer', split⟩ := inside
    obtain ⟨rest', split'⟩ := closes
    have first : front' = front := eq_behind absent.1 bare.1 split
    have closed : closing' ++ '"' :: rest' = closing ++ '"' :: (rest ++ ['\n']) := by
      simpa [repinOf] using split'
    have second : closing' = closing := eq_before absent.2.2.2.2 bare.2 closed
    have same : other.text = address.text := by
      rw [here, whole, first, second]
      rfl
    rw [← other.withoutVersion_text, same, address.withoutVersion_text]

private theorem requotes_of_quoted (marked : mark = '?' ∨ mark = '&')
    (whole : address.text = front ++ mark :: (refKey ++ (address.version ++ closing)))
    (pinned : ∀ c ∈ version, isVersionChar c = true) (versioned : version ≠ []) :
    Requotes .module (outer ++ '"' :: (address.text ++ '"' :: rest))
      (Place.fill ⟨outer ++ '"' :: (front ++ mark :: refKey), closing ++ '"' :: rest⟩ version)
      address.bare address.version version := by
  have again : (address.renew version pinned versioned).text =
      front ++ mark :: (refKey ++ (version ++ closing)) := by
    show address.opening ++ refKey ++ version ++ Address.trail address.after = _
    simp [← (address.eq_opening marked whole).1, closing_of_split marked whole]
  refine ⟨address.text, (address.renew version pinned versioned).text,
    ⟨address.quote_notMem_text, Address.quote_notMem_text _, outer, rest, rfl, ?_⟩, ?_, ?_⟩
  · rw [again]
    simp [Place.fill]
  · simp only [reference?, address.withoutVersion_text, address.version_text]
  · simp only [reference?, Address.withoutVersion_text, Address.version_text]
    rfl

end Quoted

/-- A module is in reach of its block: its exact text stands nowhere, there is a header with its
name, and the first source behind every such header is its own. -/
structure InBlock (content : List Char) (dependency : Dependency) : Prop where
  missing : findWhole? (withVersion dependency.source.toList dependency.current.toList) content = none
  headed : ∃ text, text <:+ content ∧ (bodyHere? dependency.name.toList text).isSome = true
  own : ∀ text body, text <:+ content → bodyHere? dependency.name.toList text = some body →
    ∃ address : Address, (sourceWithin? body).map Prod.fst = some address.text ∧
      address.bare = dependency.source.toList ∧ address.version = dependency.current.toList

/-- The places of a text tell whether a module is in reach of its block. -/
theorem inBlock_of_tails {content : List Char} {dependency : Dependency} (address : Address)
    (missing : findWhole? (withVersion dependency.source.toList dependency.current.toList) content =
      none)
    (source : address.bare = dependency.source.toList)
    (current : address.version = dependency.current.toList)
    (headed : content.tails.any fun text => (bodyHere? dependency.name.toList text).isSome)
    (own : content.tails.all fun text => (bodyHere? dependency.name.toList text).all fun body =>
      (sourceWithin? body).map Prod.fst == some address.text) : InBlock content dependency := by
  refine ⟨missing, ?_, fun text body inside here => ⟨address, ?_, source, current⟩⟩
  · obtain ⟨text, place, some⟩ := List.any_eq_true.mp headed
    exact ⟨text, (List.mem_tails _ _).mp place, some⟩
  · have all := List.all_eq_true.mp own text ((List.mem_tails _ _).mpr inside)
    simpa [here] using all

private theorem edits_of_headers {content source current version : List Char}
    (pinned : ∀ c ∈ version, isVersionChar c = true) (versioned : version ≠ [])
    (headed : ∃ text, text <:+ content ∧ (bodyHere? name text).isSome = true)
    (own : ∀ text body, text <:+ content → bodyHere? name text = some body →
      ∃ address : Address, (sourceWithin? body).map Prod.fst = some address.text ∧
        address.bare = source ∧ address.version = current) :
    ∃ place, findInBlock? name current content = some place ∧
      (∃ repin, Repin.Unlike repin.tail ∧
        Edits repin content (place.fill version) source current version) ∧
      Requotes .module content (place.fill version) source current version := by
  have reads {text : List Char} (previous : Option Char) (inside : text <:+ content)
      (here : (bodyHere? name text).isSome = true) :
      ∃ (address : Address) (outer front : List Char) (mark : Char) (closing rest : List Char),
        address.bare = source ∧ address.version = current ∧ (mark = '?' ∨ mark = '&') ∧
        address.text = front ++ mark :: (refKey ++ (address.version ++ closing)) ∧
        text = outer ++ '"' :: (address.text ++ '"' :: rest) ∧
        blockRefHere? name current previous text =
          some ⟨outer ++ '"' :: (front ++ mark :: refKey), closing ++ '"' :: rest⟩ := by
    obtain ⟨body, here⟩ := Option.isSome_iff_exists.mp here
    obtain ⟨address, first, bare, rfl⟩ := own text body inside here
    obtain ⟨⟨value, rest⟩, read, same⟩ := Option.map_eq_some_iff.mp first
    obtain rfl : value = address.text := same
    obtain ⟨outer, front, mark, closing, marked, whole, split, found⟩ :=
      @blockRefHere?_address name text body rest previous address here read
    exact ⟨address, outer, front, mark, closing, rest, bare, rfl, marked, whole, split, found⟩
  obtain ⟨header, inside, some⟩ := headed
  have present : findFirst (blockRefHere? name current) none content ≠ none := by
    intro missed
    obtain ⟨before, split⟩ := inside
    have nothing := findFirst_eq_none_iff.mp missed before header split.symm
    obtain ⟨_, _, _, _, _, _, _, _, _, _, _, found⟩ :=
      reads (precededBy none before) ⟨before, split⟩ some
    rw [nothing] at found
    cases found
  obtain ⟨⟨before, place⟩, found⟩ := Option.ne_none_iff_exists'.mp present
  obtain ⟨text, split, here, _⟩ := findFirst_eq_some_iff.mp found
  cases headed : bodyHere? name text with
  | none =>
    rw [blockRefHere?_of_none headed] at here
    cases here
  | some body =>
    obtain ⟨address, outer, front, mark, closing, rest, rfl, rfl, marked, whole, rfl, same⟩ :=
      reads (precededBy none before) ⟨before, split.symm⟩ (by rw [headed]; rfl)
    obtain rfl := Option.some.inj (here.symm.trans same)
    refine ⟨_, by rw [findInBlock?, found]; rfl, ?_⟩
    rw [split]
    constructor
    · have edits := @edits_of_quoted (before ++ outer) front closing rest version mark address
        marked whole pinned versioned
      simpa [Place.behind, Place.fill] using edits
    · have requotes := @requotes_of_quoted (before ++ outer) front closing rest version mark address
        marked whole pinned versioned
      simpa [Place.behind, Place.fill] using requotes

/-- The upgrade of a module in reach of its block edits the source of the block. -/
theorem edits_of_block {content version : List Char} {dependency : Dependency}
    (pinned : ∀ c ∈ version, isVersionChar c = true) (versioned : version ≠ [])
    (block : InBlock content dependency) :
    let patched := (patchModule content dependency version).content
    let source := dependency.source.toList
    let current := dependency.current.toList
    (∃ repin, Repin.Unlike repin.tail ∧ Edits repin content patched source current version) ∧
      Requotes .module content patched source current version := by
  obtain ⟨place, located, edits⟩ := edits_of_headers pinned versioned block.headed block.own
  have patched : (patchModule content dependency version).content = place.fill version := by
    simp only [patchModule, block.missing, located]
  simpa only [patched] using edits

end InfraPins.Patch
