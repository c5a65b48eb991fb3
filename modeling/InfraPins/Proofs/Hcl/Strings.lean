import InfraPins.Hcl.Value
import InfraPins.Proofs.Hcl.Token
import InfraPins.Proofs.Repin.Basic

namespace InfraPins.Hcl

open Text

private theorem plain_ne {c d : Char} (plain : isPlainChar c = true)
    (other : isPlainChar d = false) : c ≠ d := by
  rintro rfl
  rw [plain] at other
  cases other

private theorem opensTemplate_of_plain {c : Char} {text : List Char}
    (plain : isPlainChar c = true) : opensTemplate (c :: text) = false := by
  have dollar : c ≠ '$' := plain_ne plain (by decide)
  have percent : c ≠ '%' := plain_ne plain (by decide)
  simp [opensTemplate, List.isPrefixOf, dollar.symm, percent.symm]

theorem plainCharacter?_of_plain {c : Char} {text : List Char}
    (plain : isPlainChar c = true) : plainCharacter? (c :: text) = some ([c], text) := by
  have quote : c ≠ '"' := plain_ne plain (by decide)
  have escape : c ≠ '\\' := plain_ne plain (by decide)
  unfold plainCharacter?
  rw [opensTemplate_of_plain plain]
  split <;> simp_all

private theorem escapedOpening?_of_plain {c : Char} {text : List Char}
    (plain : isPlainChar c = true) : escapedOpening? (c :: text) = none := by
  have dollar : '$' ≠ c := (plain_ne plain (by decide)).symm
  have percent : '%' ≠ c := (plain_ne plain (by decide)).symm
  simp [escapedOpening?, after?, dollar, percent]

/-- Characters at the start of a text that a string takes as they stand. -/
def run? (text : List Char) : Option (List Char × List Char) :=
  (escapedOpening? text).or (plainCharacter? text)

theorem parts_of_run? {text characters rest : List Char} (fuel : Nat)
    (found : run? text = some (characters, rest)) :
    parts (fuel + 1) text =
      (parts fuel rest).map fun found => (consText characters found.1, found.2) := by
  have mapped : (parts fuel rest).map (fun found => (consText characters found.1, found.2)) =
      (parts fuel rest).bind fun found => some (consText characters found.1, found.2) :=
    Option.map_eq_bind ..
  unfold run? at found
  rw [parts.eq_def, mapped]
  cases escaped : escapedOpening? text with
  | some pair =>
    rw [escaped, Option.some_or] at found
    obtain rfl := Option.some.inj found
    simp only [escaped]
    rfl
  | none =>
    rw [escaped, Option.none_or] at found
    simp only [escaped, found]
    rfl

/-- What a string reads where no plain characters stand: its end, an interpolation or a directive. -/
def partsHere? (fuel : Nat) (text : List Char) : Option (List Part × List Char) :=
  match text with
  | '"' :: rest => some ([], rest)
  | '$' :: '{' :: rest => do
    let (inner, ahead) ← expression fuel (← ahead? .operand rest)
    if ahead.isSymbol .closeBrace then
      let (more, rest) ← parts fuel ahead.rest
      return (.interpolation inner :: more, rest)
    else none
  | '%' :: '{' :: rest => do
    let (part, rest) ← directive fuel rest
    let (more, rest) ← parts fuel rest
    return (part :: more, rest)
  | _ => none

theorem parts_of_run?_eq_none {text : List Char} (fuel : Nat) (missed : run? text = none) :
    parts (fuel + 1) text = partsHere? fuel text := by
  obtain ⟨escaped, plain⟩ := Option.or_eq_none_iff.mp missed
  rw [parts.eq_def]
  simp only [escaped, plain]
  rfl

private theorem run?_of_plain {c : Char} {text : List Char} (plain : isPlainChar c = true) :
    run? (c :: text) = some ([c], text) := by
  rw [run?, escapedOpening?_of_plain plain, plainCharacter?_of_plain plain]
  rfl

/-- Plain characters one by one in front of the parts that follow them. -/
def consPlain (plain : List Char) (parts : List Part) : List Part :=
  plain.foldr (fun c parts => consText [c] parts) parts

private theorem consText_consText (c : Char) (plain : List Char) (parts : List Part) :
    consText [c] (consText plain parts) = consText (c :: plain) parts := by
  cases parts with
  | nil => rfl
  | cons part parts => cases part <;> rfl

theorem consPlain_cons (c : Char) (plain : List Char) (parts : List Part) :
    consPlain (c :: plain) parts = consText (c :: plain) parts := by
  induction plain generalizing c with
  | nil => rfl
  | cons d plain ih =>
    have inner : consPlain (d :: plain) parts = consText (d :: plain) parts := ih d
    rw [← consText_consText, ← inner]
    rfl

theorem printParts_consText (plain : List Char) (parts : List Part) :
    (printParts (consText plain parts)).toList = plain ++ (printParts parts).toList := by
  cases parts with
  | nil => simp [consText, printParts, Part.print]
  | cons part parts => cases part <;> simp [consText, printParts, Part.print]

theorem printParts_consPlain (plain : List Char) (parts : List Part) :
    (printParts (consPlain plain parts)).toList = plain ++ (printParts parts).toList := by
  cases plain with
  | nil => rfl
  | cons c plain => rw [consPlain_cons, printParts_consText]

/-- A string goes over plain characters one by one. -/
theorem parts_append_eq_some {plain text rest : List Char} {fuel : Nat} {found : List Part}
    (chars : ∀ c ∈ plain, isPlainChar c = true) :
    parts fuel (plain ++ text) = some (found, rest) ↔
      ∃ fuel' found', fuel = fuel' + plain.length ∧ parts fuel' text = some (found', rest) ∧
        found = consPlain plain found' := by
  induction plain generalizing fuel found with
  | nil => simp [consPlain]
  | cons c plain ih =>
    cases fuel with
    | zero => simp [parts]
    | succ fuel =>
      rw [List.cons_append, parts_of_run? _ (run?_of_plain (chars c List.mem_cons_self)),
        Option.map_eq_some_iff]
      have shorter (found : List Part) :=
        @ih fuel found fun d member => chars d (List.mem_cons_of_mem _ member)
      constructor
      · rintro ⟨⟨inner, after⟩, read, same⟩
        obtain ⟨rfl, rfl⟩ := Prod.mk.inj same
        obtain ⟨fuel', found', rfl, read, rfl⟩ := (shorter inner).mp read
        exact ⟨fuel', found', rfl, read, rfl⟩
      · rintro ⟨fuel', found', enough, read, rfl⟩
        exact ⟨_, (shorter _).mpr ⟨fuel', found', Nat.succ.inj enough, read, rfl⟩, rfl⟩

theorem parts_quote {fuel : Nat} {text rest : List Char} {found : List Part} :
    parts fuel ('"' :: text) = some (found, rest) ↔ 0 < fuel ∧ found = [] ∧ rest = text := by
  cases fuel with
  | zero => simp [parts]
  | succ fuel =>
    rw [parts_of_run?_eq_none fuel rfl, partsHere?, Option.some_inj, Prod.mk.injEq]
    simp only [Nat.succ_pos, true_and, eq_comm]

/-- Plain characters up to a quote are a string that prints as they stand. -/
theorem print_of_parts {plain text rest : List Char} {fuel : Nat} {found : List Part}
    (chars : ∀ c ∈ plain, isPlainChar c = true)
    (read : parts fuel (plain ++ '"' :: text) = some (found, rest)) :
    (printParts found).toList = plain := by
  obtain ⟨_, inner, _, closed, rfl⟩ := (parts_append_eq_some chars).mp read
  obtain ⟨_, rfl, _⟩ := parts_quote.mp closed
  simp [printParts_consPlain, printParts]

private theorem eq_of_plainCharacter? {text characters rest : List Char}
    (found : plainCharacter? text = some (characters, rest)) : text = characters ++ rest := by
  unfold plainCharacter? at found
  split at found
  · cases found
  · split at found
    · cases found
    · cases found
    · split at found
      · cases found
      · obtain ⟨rfl, rfl⟩ := Prod.mk.inj (Option.some.inj found)
        rfl
    · cases found
    · obtain ⟨rfl, rfl⟩ := Prod.mk.inj (Option.some.inj found)
      rfl

private theorem head?_of_escapedOpening? {text characters rest : List Char}
    (found : escapedOpening? text = some (characters, rest)) :
    ∃ c, isPlainChar c = false ∧ c ∈ characters := by
  obtain ⟨opening, member, found⟩ := List.exists_of_findSome?_eq_some found
  obtain ⟨_, _, found⟩ := Option.bind_eq_some_iff.mp found
  obtain ⟨_, _, found⟩ := Option.bind_eq_some_iff.mp found
  obtain ⟨rfl, _⟩ := Prod.mk.inj (Option.some.inj found)
  simp only [List.mem_cons, List.not_mem_nil, or_false] at member
  rcases member with rfl | rfl
  · exact ⟨'$', by decide, by simp⟩
  · exact ⟨'%', by decide, by simp⟩

private theorem mem_of_directive {fuel : Nat} {text rest : List Char} {part : Part}
    (read : directive fuel text = some (part, rest)) : '%' ∈ part.print.toList := by
  have opens (marks : StripMarks) : '%' ∈ marks.opening.toList := by
    unfold StripMarks.opening
    split <;> simp
  cases fuel with
  | zero => simp [directive] at read
  | succ fuel =>
    rw [directive] at read
    obtain ⟨⟨word, text⟩, _, read⟩ := Option.bind_eq_some_iff.mp read
    cases word with
    | ifWord =>
      obtain ⟨_, _, read⟩ := Option.bind_eq_some_iff.mp read
      obtain ⟨_, _, read⟩ := Option.bind_eq_some_iff.mp read
      obtain ⟨_, _, read⟩ := Option.bind_eq_some_iff.mp read
      obtain ⟨rfl, _⟩ := Prod.mk.inj (Option.some.inj read)
      simp [Part.print, opens]
    | forWord =>
      obtain ⟨_, _, read⟩ := Option.bind_eq_some_iff.mp read
      obtain ⟨_, _, read⟩ := Option.bind_eq_some_iff.mp read
      obtain ⟨_, _, read⟩ := Option.bind_eq_some_iff.mp read
      obtain ⟨_, _, read⟩ := Option.bind_eq_some_iff.mp read
      obtain ⟨_, _, read⟩ := Option.bind_eq_some_iff.mp read
      obtain ⟨rfl, _⟩ := Prod.mk.inj (Option.some.inj read)
      simp [Part.print, opens]
    | _ =>
      obtain ⟨_, _, read⟩ := Option.bind_eq_some_iff.mp read
      obtain ⟨_, _, read⟩ := Option.bind_eq_some_iff.mp read
      first
      | obtain ⟨rfl, _⟩ := Prod.mk.inj (Option.some.inj read)
        simp [Part.print, opens]
      | cases read

theorem suffix_of_run? {text characters rest : List Char}
    (found : run? text = some (characters, rest)) :
    rest <:+ text ∧ rest.length < text.length := by
  have split : ∃ taken, taken ≠ [] ∧ text = taken ++ rest := by
    rcases Option.or_eq_some_iff.mp found with escaped | ⟨_, plain⟩
    · obtain ⟨opening, _, here⟩ := List.exists_of_findSome?_eq_some escaped
      obtain ⟨behind, opened, here⟩ := Option.bind_eq_some_iff.mp here
      obtain ⟨⟨inner, after⟩, closed, here⟩ := Option.bind_eq_some_iff.mp here
      obtain ⟨_, rfl⟩ := Prod.mk.inj (Option.some.inj here)
      refine ⟨opening ++ (inner ++ ['}']), by simp, ?_⟩
      rw [after?_eq_some_iff.mp opened, eq_of_cutAt? closed]
      simp
    · refine ⟨characters, ?_, eq_of_plainCharacter? plain⟩
      rintro rfl
      have whole := eq_of_plainCharacter? plain
      rw [List.nil_append] at whole
      subst whole
      unfold plainCharacter? at plain
      split at plain
      · cases plain
      · split at plain <;> simp_all
  obtain ⟨taken, nonempty, rfl⟩ := split
  refine ⟨List.suffix_append .., ?_⟩
  rw [List.length_append]
  have := List.length_pos_iff.mpr nonempty
  omega

/-- A string that prints as a plain text is that text up to the closing quote. -/
theorem eq_of_parts {fuel : Nat} {text rest : List Char} {found : List Part}
    (read : parts fuel text = some (found, rest))
    (chars : ∀ c ∈ (printParts found).toList, isPlainChar c = true) :
    text = (printParts found).toList ++ '"' :: rest := by
  induction fuel generalizing text found with
  | zero => simp [parts] at read
  | succ fuel ih =>
    cases taken : run? text with
    | some pair =>
      obtain ⟨characters, after⟩ := pair
      rw [parts_of_run? fuel taken] at read
      obtain ⟨⟨inner, last⟩, onward, same⟩ := Option.map_eq_some_iff.mp read
      obtain ⟨rfl, rfl⟩ := Prod.mk.inj same
      rw [printParts_consText] at chars ⊢
      have behind := ih onward fun c member => chars c (List.mem_append_right _ member)
      rcases Option.or_eq_some_iff.mp taken with escaped | ⟨_, plain⟩
      · obtain ⟨c, other, member⟩ := head?_of_escapedOpening? escaped
        rw [chars c (List.mem_append_left _ member)] at other
        cases other
      · rw [eq_of_plainCharacter? plain, behind, List.append_assoc]
    | none =>
      rw [parts_of_run?_eq_none fuel taken] at read
      unfold partsHere? at read
      split at read
      · obtain ⟨rfl, rfl⟩ := Prod.mk.inj (Option.some.inj read)
        rfl
      · obtain ⟨_, _, read⟩ := Option.bind_eq_some_iff.mp read
        obtain ⟨⟨inner, ahead⟩, _, read⟩ := Option.bind_eq_some_iff.mp read
        dsimp only at read
        split at read
        · obtain ⟨_, _, read⟩ := Option.bind_eq_some_iff.mp read
          obtain ⟨rfl, _⟩ := Prod.mk.inj (Option.some.inj read)
          exact absurd (chars '$' (by simp [printParts, Part.print])) (by decide)
        · cases read
      · obtain ⟨_, here, read⟩ := Option.bind_eq_some_iff.mp read
        obtain ⟨_, _, read⟩ := Option.bind_eq_some_iff.mp read
        obtain ⟨rfl, _⟩ := Prod.mk.inj (Option.some.inj read)
        have member := mem_of_directive here
        exact absurd (chars '%' (by simp [printParts, member])) (by decide)
      · cases read

end InfraPins.Hcl
