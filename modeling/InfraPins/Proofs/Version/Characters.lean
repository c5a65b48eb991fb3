import InfraPins.Proofs.Scan.Pattern
import InfraPins.Proofs.Text.Percent
import InfraPins.Proofs.Text.Trimmed
import InfraPins.Proofs.Version.Spelling
import InfraPins.Upgrade.Patch

namespace InfraPins.Text

/-- An ASCII letter or digit is a word character. -/
theorem isWord_of_isAlphanum {c : Char} (letter : c.isAlphanum = true) : isWord c = true := by
  simp [isWord, toNat_lt_of_isAlphanum letter, letter]

private theorem digits_in_wordRanges : digitZeros.all (fun first => first == 0x30 ||
    wordRanges.any fun range => Nat.ble range.1 first && Nat.ble (first + 9) range.2) = true := by
  decide +kernel

theorem isWord_of_isDecimal {c : Char} (digit : isDecimal c = true) : isWord c = true := by
  obtain ⟨value, found⟩ := Option.isSome_iff_exists.mp digit
  obtain ⟨first, here, _⟩ := Option.map_eq_some_iff.mp found
  have within : first ≤ c.toNat ∧ c.toNat ≤ first + 9 := by simpa using List.find?_some here
  have ranges := List.all_eq_true.mp digits_in_wordRanges first (List.mem_of_find?_eq_some here)
  rw [Bool.or_eq_true, beq_iff_eq, List.any_eq_true] at ranges
  rcases ranges with ascii | ⟨range, member, inside⟩
  · apply isWord_of_isAlphanum
    have digit : c.isDigit = true := by
      simp only [Char.isDigit, ge_iff_le, Bool.and_eq_true, decide_eq_true_eq,
        UInt32.le_iff_toNat_le]
      have code : c.toNat = c.val.toNat := rfl
      have lower : '0'.val.toNat = 0x30 := rfl
      have upper : '9'.val.toNat = 0x39 := rfl
      omega
    simp [Char.isAlphanum, digit]
  · obtain ⟨low, high⟩ := Bool.and_eq_true_iff.mp inside
    have floor : range.1 ≤ first := Nat.le_of_ble_eq_true low
    have ceiling : first + 9 ≤ range.2 := Nat.le_of_ble_eq_true high
    have beyond : ∀ range ∈ wordRanges, 0x80 ≤ range.1 := by decide +kernel
    have large : ¬ c.toNat < 0x80 := by
      have bound := beyond range member
      omega
    have ranged : inRanges wordRanges c.toNat = true :=
      List.any_eq_true.mpr ⟨range, member, by simp; omega⟩
    simp [isWord, large, ranged]

end InfraPins.Text

namespace InfraPins.Version

open Text

variable {text : List Char}

private theorem isVersionChar_of_isDecimal {c : Char} (digit : isDecimal c = true) :
    Patch.isVersionChar c = true := by
  simp [Patch.isVersionChar, isWord_of_isDecimal digit]

private theorem isVersionChar_of_number {digits : List Char} (number : IsNumber digits) {c : Char}
    (member : c ∈ digits) : Patch.isVersionChar c = true := by
  rcases number with rfl | ⟨first, rest, rfl, ⟨low, high⟩, decimal⟩
  · rw [List.mem_singleton.mp member]
    decide
  · rcases List.mem_cons.mp member with rfl | member
    · have digit : c.isDigit = true := by
        have floor : '0'.val ≤ c.val := UInt32.le_trans (by decide) low
        exact Bool.and_eq_true_iff.mpr ⟨decide_eq_true floor, decide_eq_true high⟩
      simp [Patch.isVersionChar, isWord_of_isAlphanum, Char.isAlphanum, digit]
    · exact isVersionChar_of_isDecimal (decimal c member)

private theorem isVersionChar_of_markedText {mark : Char} {identifiers : List (List Char)}
    (all : ∀ identifier ∈ identifiers, IsIdentifier identifier)
    (char : Patch.isVersionChar mark = true) {c : Char} (member : c ∈ markedText mark identifiers) :
    Patch.isVersionChar c = true := by
  unfold markedText at member
  split at member
  · cases member
  · rcases List.mem_cons.mp member with rfl | member
    · exact char
    · rcases mem_join member with rfl | ⟨identifier, inside, member⟩
      · decide
      · have accepted := (all identifier inside).2 c member
        simp only [isIdentifierChar, Bool.or_eq_true, beq_iff_eq] at accepted
        rcases accepted with letter | rfl
        · simp [Patch.isVersionChar, isWord_of_isAlphanum letter]
        · decide

theorem Spelling.isVersionChar_of_mem {spelling : Spelling} (wellFormed : spelling.WellFormed)
    {c : Char} (member : c ∈ spelling.text) : Patch.isVersionChar c = true := by
  have dot : Patch.isVersionChar '.' = true := by decide
  cases spelling with
  | single major => exact isVersionChar_of_number wellFormed member
  | pair major minor =>
    obtain ⟨number, number'⟩ := wellFormed
    simp only [Spelling.text, List.mem_append, List.mem_cons] at member
    rcases member with member | rfl | member
    · exact isVersionChar_of_number number member
    · exact dot
    · exact isVersionChar_of_number number' member
  | full major minor patch prerelease build =>
    obtain ⟨⟨number, number', number''⟩, identifiers, identifiers'⟩ := wellFormed
    simp only [Spelling.text, List.mem_append, List.mem_cons] at member
    rcases member with member | rfl | member | rfl | member | member | member
    · exact isVersionChar_of_number number member
    · exact dot
    · exact isVersionChar_of_number number' member
    · exact dot
    · exact isVersionChar_of_number number'' member
    · exact isVersionChar_of_markedText (fun part inside => (identifiers part inside).1) (by decide)
        member
    · exact isVersionChar_of_markedText identifiers' (by decide) member

private theorem shape?_of_isSemanticLike (semantic : isSemanticLike text = .ok true) :
    ∃ shape, shape? (normalize text) = some shape := by
  cases found : shape? (normalize text) with
  | some shape => exact ⟨shape, rfl⟩
  | none =>
    simp [isSemanticLike, isSemantic, parse, found, Except.map] at semantic

private theorem mem_trim_or_isBlank {c : Char} (member : c ∈ text) :
    c ∈ trim text ∨ isBlank c = true := by
  obtain ⟨lead, trail, split, blank, blank'⟩ := eq_trim text
  rw [split] at member
  rcases List.mem_append.mp member with member | member
  · rcases List.mem_append.mp member with member | member
    · exact .inr (blank c member)
    · exact .inl member
  · exact .inr (blank' c member)

/-- Within white space around it, a version is made of characters of versions. -/
theorem isVersionChar_of_mem_trim (semantic : isSemanticLike text = .ok true) {c : Char}
    (member : c ∈ trim text) : Patch.isVersionChar c = true := by
  obtain ⟨shape, found⟩ := shape?_of_isSemanticLike semantic
  obtain ⟨spelling, spells, _⟩ := spells_of_shape? found
  have normal : c ∈ normalize text := by
    unfold normalize
    split
    · rename_i same
      exact same ▸ member
    · exact List.mem_cons_of_mem _ member
  rw [spells.written] at normal
  rcases List.mem_cons.mp normal with rfl | here
  · decide
  · exact Spelling.isVersionChar_of_mem spells.wellFormed here

/-- A version is made of characters of versions, and of white space around them. -/
theorem isVersionChar_of_isSemanticLike (semantic : isSemanticLike text = .ok true) {c : Char}
    (member : c ∈ text) : Patch.isVersionChar c = true ∨ isBlank c = true := by
  rcases mem_trim_or_isBlank member with inside | blank
  · exact .inl (isVersionChar_of_mem_trim semantic inside)
  · exact .inr blank

/-- White space around a text does not make it another version. -/
theorem version?_trim (text : List Char) : version? (trim text) = version? text := by
  rw [version?, version?, normalize, normalize, trim_trim]

theorem ne_nil_of_isSemanticLike (semantic : isSemanticLike text = .ok true) : text ≠ [] := by
  rintro rfl
  revert semantic
  decide

end InfraPins.Version
