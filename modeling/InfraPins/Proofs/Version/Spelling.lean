import InfraPins.Proofs.Text.Pieces
import InfraPins.Version.Basic

namespace InfraPins.Version

open Text

/-- The digits of a number: a lone zero, or a digit from one to nine and any digits behind it. -/
def IsNumber (digits : List Char) : Prop :=
  digits = ['0'] ∨ ∃ first rest, digits = first :: rest ∧ ('1' ≤ first ∧ first ≤ '9') ∧
    ∀ digit ∈ rest, isDecimal digit = true

/-- A pre-release or build identifier. -/
def IsIdentifier (text : List Char) : Prop :=
  text ≠ [] ∧ ∀ c ∈ text, isIdentifierChar c = true

/-- The version that digits and identifiers mean. -/
def Shape.version (shape : Shape) : SemVer :=
  ⟨decimalNumber shape.major, decimalNumber shape.minor, decimalNumber shape.patch, shape.prerelease⟩

def version? (text : List Char) : Option SemVer :=
  (shape? (normalize text)).map Shape.version

/-- The parts that a version is written with. -/
inductive Spelling where
  | single (major : List Char)
  | pair (major minor : List Char)
  | full (major minor patch : List Char) (prerelease build : List (List Char))

/-- Identifiers behind their mark, or nothing where there are none. -/
def markedText (mark : Char) (identifiers : List (List Char)) : List Char :=
  if identifiers = [] then [] else mark :: join ['.'] identifiers

namespace Spelling

def text : Spelling → List Char
  | single major => major
  | pair major minor => major ++ '.' :: minor
  | full major minor patch prerelease build =>
    major ++ '.' :: (minor ++ '.' :: (patch ++ (markedText '-' prerelease ++ markedText '+' build)))

/-- The numbers and identifiers are what they have to be, and no numeric identifier of the pre-release
has a superfluous leading zero. -/
def WellFormed : Spelling → Prop
  | single major => IsNumber major
  | pair major minor => IsNumber major ∧ IsNumber minor
  | full major minor patch prerelease build =>
    (IsNumber major ∧ IsNumber minor ∧ IsNumber patch) ∧
      (∀ identifier ∈ prerelease, IsIdentifier identifier ∧ hasLeadingZero identifier = false) ∧
      ∀ identifier ∈ build, IsIdentifier identifier

/-- The version that a spelling means. A missing number counts as zero, and the build as nothing. -/
def version : Spelling → SemVer
  | single major => ⟨decimalNumber major, 0, 0, []⟩
  | pair major minor => ⟨decimalNumber major, decimalNumber minor, 0, []⟩
  | full major minor patch prerelease _ =>
    ⟨decimalNumber major, decimalNumber minor, decimalNumber patch, prerelease⟩

/-- The digits and identifiers that the version is read from. -/
def shape : Spelling → Shape
  | single major => ⟨major, ['0'], ['0'], []⟩
  | pair major minor => ⟨major, minor, ['0'], []⟩
  | full major minor patch prerelease _ => ⟨major, minor, patch, prerelease⟩

theorem version_shape (spelling : Spelling) : spelling.shape.version = spelling.version := by
  cases spelling <;> rfl

/-- A spelling is how a text is written, once normalized. -/
structure Spells (spelling : Spelling) (text : List Char) : Prop where
  wellFormed : spelling.WellFormed
  written : normalize text = 'v' :: spelling.text

end Spelling

variable {text rest : List Char}

theorem eq_of_numberField? {digits : List Char}
    (found : numberField? text = some (digits, rest)) : IsNumber digits ∧ text = digits ++ rest := by
  cases text with
  | nil => cases found
  | cons c text =>
    simp only [numberField?, beq_iff_eq, Bool.and_eq_true, decide_eq_true_eq] at found
    split at found
    · rename_i zero
      obtain ⟨rfl, rfl⟩ := Prod.mk.inj (Option.some.inj found)
      exact ⟨.inl rfl, by rw [zero]; rfl⟩
    · split at found
      · rename_i nonzero
        obtain ⟨rfl, rfl⟩ := Prod.mk.inj (Option.some.inj found)
        refine ⟨.inr ⟨c, _, rfl, nonzero, fun digit member => ?_⟩, ?_⟩
        · exact List.all_eq_true.mp List.all_takeWhile digit member
        · exact congrArg (c :: ·) List.takeWhile_append_dropWhile.symm
      · cases found

theorem eq_of_nextNumber? {digits? : Option (List Char)}
    (found : nextNumber? text = some (digits?, rest)) :
    (digits? = none ∧ rest = text) ∨
      ∃ digits, digits? = some digits ∧ IsNumber digits ∧ text = '.' :: (digits ++ rest) := by
  unfold nextNumber? at found
  split at found
  · obtain ⟨⟨digits, behind⟩, field, same⟩ := Option.map_eq_some_iff.mp found
    obtain ⟨rfl, rfl⟩ := Prod.mk.inj same
    obtain ⟨number, rfl⟩ := eq_of_numberField? field
    exact .inr ⟨digits, rfl, number, rfl⟩
  · obtain ⟨rfl, rfl⟩ := Prod.mk.inj (Option.some.inj found)
    exact .inl ⟨rfl, rfl⟩

theorem eq_of_identifiers? {parts : List (List Char)}
    (found : identifiers? text = some (parts, rest)) :
    parts ≠ [] ∧ (∀ part ∈ parts, IsIdentifier part) ∧ text = join ['.'] parts ++ rest := by
  unfold identifiers? at found
  dsimp only [spanWhile] at found
  split at found
  · cases found
  · rename_i nonempty
    obtain ⟨rfl, rfl⟩ := Prod.mk.inj (Option.some.inj found)
    refine ⟨splitAt_ne_nil _, fun part member => ⟨fun empty => ?_, fun c inside => ?_⟩, ?_⟩
    · exact nonempty (List.any_eq_true.mpr ⟨part, member, List.isEmpty_iff.mpr empty⟩)
    · obtain ⟨taken, apart⟩ := mem_of_mem_splitAt member inside
      have accepted := List.all_eq_true.mp List.all_takeWhile c taken
      simpa [apart] using accepted
    · rw [join_splitAt, List.takeWhile_append_dropWhile]

theorem eq_of_marked? {mark : Char} {parts : List (List Char)}
    (found : marked? mark text = some (parts, rest)) :
    (∀ part ∈ parts, IsIdentifier part) ∧ text = markedText mark parts ++ rest := by
  cases text with
  | nil =>
    obtain ⟨rfl, rfl⟩ := Prod.mk.inj (Option.some.inj found)
    exact ⟨nofun, rfl⟩
  | cons c text =>
    simp only [marked?, beq_iff_eq] at found
    split at found
    · rename_i same
      obtain ⟨some, identifiers, rfl⟩ := eq_of_identifiers? found
      exact ⟨identifiers, by simp [markedText, some, same]⟩
    · obtain ⟨rfl, rfl⟩ := Prod.mk.inj (Option.some.inj found)
      exact ⟨nofun, rfl⟩

/-- What is recognised at the start of a text is a spelling, apart from leading zeros. -/
theorem eq_of_shapePrefix? {shape : Shape} (found : shapePrefix? text = some (shape, rest))
    (unpadded : shape.prerelease.any hasLeadingZero = false) :
    ∃ spelling : Spelling, spelling.WellFormed ∧ spelling.shape = shape ∧
      text = 'v' :: (spelling.text ++ rest) := by
  obtain ⟨behind, opened, found⟩ := Option.bind_eq_some_iff.mp found
  obtain ⟨⟨major, first⟩, field, found⟩ := Option.bind_eq_some_iff.mp found
  obtain ⟨number, major_⟩ := eq_of_numberField? field
  obtain ⟨⟨minor?, second⟩, field, found⟩ := Option.bind_eq_some_iff.mp found
  have written : text = 'v' :: (major ++ first) := by
    rw [after?_eq_some_iff.mp opened, major_]
    rfl
  rcases eq_of_nextNumber? field with ⟨rfl, same⟩ | ⟨minor, rfl, number', minor_⟩
  · obtain ⟨rfl, rfl⟩ := Prod.mk.inj (Option.some.inj found)
    exact ⟨.single major, number, rfl, by rw [written, same]; rfl⟩
  · obtain ⟨⟨patch?, third⟩, field, found⟩ := Option.bind_eq_some_iff.mp found
    rcases eq_of_nextNumber? field with ⟨rfl, same⟩ | ⟨patch, rfl, number'', patch_⟩
    · obtain ⟨rfl, rfl⟩ := Prod.mk.inj (Option.some.inj found)
      exact ⟨.pair major minor, ⟨number, number'⟩, rfl, by simp [written, minor_, same, Spelling.text]⟩
    · obtain ⟨⟨prerelease, fourth⟩, marked, found⟩ := Option.bind_eq_some_iff.mp found
      obtain ⟨identifiers, prerelease_⟩ := eq_of_marked? marked
      obtain ⟨⟨build, fifth⟩, marked, found⟩ := Option.bind_eq_some_iff.mp found
      obtain ⟨identifiers', build_⟩ := eq_of_marked? marked
      obtain ⟨rfl, rfl⟩ := Prod.mk.inj (Option.some.inj found)
      refine ⟨.full major minor patch prerelease build, ⟨⟨number, number', number''⟩,
        fun identifier member => ⟨identifiers identifier member, ?_⟩, identifiers'⟩, rfl, ?_⟩
      · exact Bool.eq_false_iff.mpr (List.any_eq_false.mp unpadded identifier member)
      · simp [written, minor_, patch_, prerelease_, build_, Spelling.text]

/-- A text without white space at its end does not end with a line end. -/
theorem getLast?_normalize (text : List Char) : (normalize text).getLast? ≠ some '\n' := by
  have trimmed : (trim text).getLast? ≠ some '\n' := by
    intro last
    rw [trim, trimEnd, List.getLast?_reverse] at last
    have blank := List.head?_dropWhile_not isBlank (trimStart text).reverse
    rw [last] at blank
    exact absurd blank (by decide)
  unfold normalize
  split
  · rename_i same
    rwa [← same]
  · rw [List.getLast?_cons]
    cases last : (trim text).getLast? with
    | none => simp
    | some c =>
      rw [last] at trimmed
      simpa using trimmed

/-- A text that is a version once normalized has a spelling, which has its shape. -/
theorem spells_of_shape? {shape : Shape} (found : shape? (normalize text) = some shape) :
    ∃ spelling : Spelling, spelling.Spells text ∧ spelling.shape = shape := by
  obtain ⟨⟨other, rest⟩, taken, ends⟩ := Option.bind_eq_some_iff.mp found
  dsimp only at ends
  split at ends
  · rename_i last
    obtain rfl := Option.some.inj ends
    simp only [Bool.and_eq_true, Bool.or_eq_true, beq_iff_eq, Bool.not_eq_true'] at last
    obtain ⟨spelling, wellFormed, same, written⟩ := eq_of_shapePrefix? taken last.2
    rcases last.1 with rfl | rfl
    · exact ⟨spelling, ⟨wellFormed, by simpa using written⟩, same⟩
    · refine (getLast?_normalize text ?_).elim
      rw [written]
      rw [← List.cons_append, List.getLast?_concat]
  · cases ends

def Stops (accept : Char → Bool) (text : List Char) : Prop :=
  ∀ c ∈ text.head?, accept c = false

theorem stops_nil {accept : Char → Bool} : Stops accept [] := nofun

theorem stops_cons {accept : Char → Bool} {c : Char} (refused : accept c = false) :
    Stops accept (c :: rest) := by
  rintro _ ⟨⟩
  exact refused

theorem Stops.append {accept : Char → Bool} (first : Stops accept text) (second : Stops accept rest) :
    Stops accept (text ++ rest) := by
  cases text with
  | nil => exact second
  | cons c text => exact first

theorem stops_markedText {accept : Char → Bool} {mark : Char} (refused : accept mark = false)
    (identifiers : List (List Char)) : Stops accept (markedText mark identifiers) := by
  unfold markedText
  split
  · exact stops_nil
  · exact stops_cons refused

theorem spanWhile_append {accept : Char → Bool} {taken : List Char}
    (accepted : ∀ c ∈ taken, accept c = true) (stops : Stops accept rest) :
    spanWhile accept (taken ++ rest) = (taken, rest) := by
  have behind : rest.takeWhile accept = [] ∧ rest.dropWhile accept = rest := by
    cases rest with
    | nil => exact ⟨rfl, rfl⟩
    | cons c rest => simp [stops c rfl]
  simp [spanWhile, List.takeWhile_append_of_pos accepted, List.dropWhile_append_of_pos accepted,
    behind]

theorem numberField?_append {digits : List Char} (number : IsNumber digits)
    (stops : Stops isDecimal rest) : numberField? (digits ++ rest) = some (digits, rest) := by
  rcases number with rfl | ⟨first, more, rfl, nonzero, decimal⟩
  · rfl
  · have different : first ≠ '0' := by
      rintro rfl
      exact absurd nonzero (by decide)
    simp [numberField?, different, nonzero, spanWhile_append decimal stops]

theorem nextNumber?_append {digits : List Char} (number : IsNumber digits)
    (stops : Stops isDecimal rest) :
    nextNumber? ('.' :: (digits ++ rest)) = some (some digits, rest) := by
  simp [nextNumber?, numberField?_append number stops]

theorem identifiers?_append {parts : List (List Char)} (present : parts ≠ [])
    (identifiers : ∀ part ∈ parts, IsIdentifier part)
    (stops : Stops (fun c => isIdentifierChar c || c == '.') rest) :
    identifiers? (join ['.'] parts ++ rest) = some (parts, rest) := by
  have accepted : ∀ c ∈ join ['.'] parts, (isIdentifierChar c || c == '.') = true := by
    intro c member
    rcases mem_join member with rfl | ⟨part, inside, member⟩
    · rfl
    · simp [(identifiers part inside).2 c member]
  have free : ∀ part ∈ parts, '.' ∉ part := by
    intro part inside member
    exact absurd ((identifiers part inside).2 '.' member) (by decide)
  have full : parts.any List.isEmpty = false := by
    refine List.any_eq_false.mpr fun part inside empty => ?_
    exact (identifiers part inside).1 (List.isEmpty_iff.mp empty)
  simp [identifiers?, spanWhile_append accepted stops, splitAt_join present free, full]

theorem marked?_append {mark : Char} {parts : List (List Char)}
    (identifiers : ∀ part ∈ parts, IsIdentifier part)
    (stops : Stops (fun c => isIdentifierChar c || c == '.') rest)
    (unmarked : Stops (· == mark) rest) :
    marked? mark (markedText mark parts ++ rest) = some (parts, rest) := by
  by_cases present : parts = []
  · obtain rfl := present
    cases rest with
    | nil => rfl
    | cons c rest =>
      have different : (c == mark) = false := unmarked c rfl
      simp [markedText, marked?, different]
  · simp [markedText, present, marked?, identifiers?_append present identifiers stops]

theorem Spelling.shapePrefix?_text {spelling : Spelling} (wellFormed : spelling.WellFormed) :
    shapePrefix? ('v' :: spelling.text) = some (spelling.shape, []) := by
  have opened (text : List Char) : after? ['v'] ('v' :: text) = some text := rfl
  have dot (text : List Char) : Stops isDecimal ('.' :: text) := stops_cons (by decide)
  cases spelling with
  | single major =>
    have first : numberField? major = some (major, []) := by
      simpa using numberField?_append wellFormed stops_nil
    simp [shapePrefix?, opened, Spelling.text, first, nextNumber?]
    rfl
  | pair major minor =>
    obtain ⟨number, number'⟩ := wellFormed
    have second : nextNumber? ('.' :: minor) = some (some minor, []) := by
      simpa using nextNumber?_append number' stops_nil
    simp [shapePrefix?, opened, Spelling.text, numberField?_append number (dot _), second]
    rfl
  | full major minor patch prerelease build =>
    obtain ⟨⟨number, number', number''⟩, identifiers, identifiers'⟩ := wellFormed
    have behind : Stops isDecimal (markedText '-' prerelease ++ markedText '+' build) :=
      (stops_markedText (by decide) _).append (stops_markedText (by decide) _)
    have first : marked? '-' (markedText '-' prerelease ++ markedText '+' build) =
        some (prerelease, markedText '+' build) :=
      marked?_append (fun part inside => (identifiers part inside).1)
        (stops_markedText (by decide) _) (stops_markedText (by decide) _)
    have second : marked? '+' (markedText '+' build) = some (build, []) := by
      simpa using marked?_append identifiers' stops_nil stops_nil
    simp [shapePrefix?, opened, Spelling.text, numberField?_append number (dot _),
      nextNumber?_append number' (dot _), nextNumber?_append number'' behind, first, second]
    rfl

theorem Spelling.Spells.shape?_eq {spelling : Spelling} (spells : spelling.Spells text) :
    shape? (normalize text) = some spelling.shape := by
  have unpadded : ∀ identifier ∈ spelling.shape.prerelease, hasLeadingZero identifier = false := by
    have wellFormed := spells.wellFormed
    cases spelling with
    | full major minor patch prerelease build =>
      exact fun identifier member => (wellFormed.2.1 identifier member).2
    | _ => nofun
  simpa [shape?, spells.written, Spelling.shapePrefix?_text spells.wellFormed] using unpadded

/-- A text is a version exactly if it has a spelling, and the version is what its spelling means. -/
theorem version?_eq_some_iff {version : SemVer} :
    version? text = some version ↔
      ∃ spelling : Spelling, spelling.Spells text ∧ spelling.version = version := by
  constructor
  · intro found
    obtain ⟨shape, recognised, rfl⟩ := Option.map_eq_some_iff.mp found
    obtain ⟨spelling, spells, rfl⟩ := spells_of_shape? recognised
    exact ⟨spelling, spells, spelling.version_shape.symm⟩
  · rintro ⟨spelling, spells, rfl⟩
    rw [version?, spells.shape?_eq, ← spelling.version_shape]
    rfl

end InfraPins.Version
