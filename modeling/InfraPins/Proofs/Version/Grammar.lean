import InfraPins.Proofs.Text.Trimmed
import InfraPins.Proofs.Version.Precedence
import Mathlib.Data.List.Infix

/-! The grammar of versions. It is given by rules of its own, each with the value that it derives, and
the reader of versions accepts what the rules derive: every nonterminal is compared with the part of a
spelling that stands for it. -/

namespace InfraPins.Version

open Text

/-- A number: zero, or digits that do not begin with a zero. -/
structure IsNumeral (digits : List Char) : Prop where
  filled : digits ≠ []
  decimal : ∀ c ∈ digits, c.isDigit = true
  unpadded : digits.head? = some '0' → digits = ['0']

def decimalValue (digits : List Char) : Nat :=
  Nat.ofDigits 10 (digits.reverse.map fun c => c.toNat - '0'.toNat)

/-- An identifier: letters, digits and hyphens, and at least one of them. -/
structure IsName (text : List Char) : Prop where
  filled : text ≠ []
  signs : ∀ c ∈ text, c.isAlphanum = true ∨ c = '-'

/-- Digits only, with a leading zero that they do not need. -/
def IsPadded (text : List Char) : Prop :=
  (∀ c ∈ text, c.isDigit = true) ∧ ∃ c rest, text = '0' :: c :: rest

/-- Identifiers with a dot between each two. -/
inductive Dotted : List Char → List (List Char) → Prop
  | last {name : List Char} (is : IsName name) : Dotted name [name]
  | more {name text : List Char} {names : List (List Char)} (is : IsName name)
      (behind : Dotted text names) : Dotted (name ++ '.' :: text) (name :: names)

/-- Identifiers behind a mark, or nothing. -/
inductive Marked (mark : Char) : List Char → List (List Char) → Prop
  | absent : Marked mark [] []
  | present {text : List Char} {names : List (List Char)} (dotted : Dotted text names) :
      Marked mark (mark :: text) names

/-- What a version is written like, and what it is then. -/
inductive Derives : List Char → SemVer → Prop
  | one {major : List Char} (is : IsNumeral major) : Derives major ⟨decimalValue major, 0, 0, []⟩
  | two {major minor : List Char} (is : IsNumeral major) (is' : IsNumeral minor) :
      Derives (major ++ '.' :: minor) ⟨decimalValue major, decimalValue minor, 0, []⟩
  | three {major minor patch front back : List Char} {prerelease build : List (List Char)}
      (is : IsNumeral major) (is' : IsNumeral minor) (is'' : IsNumeral patch)
      (before : Marked '-' front prerelease) (unpadded : ∀ name ∈ prerelease, ¬ IsPadded name)
      (behind : Marked '+' back build) :
      Derives (major ++ '.' :: (minor ++ '.' :: (patch ++ (front ++ back))))
        ⟨decimalValue major, decimalValue minor, decimalValue patch, prerelease⟩

/-- A text without one leading `v`. -/
def unprefixed : List Char → List Char
  | 'v' :: rest => rest
  | text => text

/-- No run of digits in a text is longer than what is read as a number. -/
def ShortRuns (text : List Char) : Prop :=
  ∀ run, run <:+: text → (∀ c ∈ run, c.isDigit = true) → run.length ≤ 4300

variable {text digits name : List Char} {names : List (List Char)} {mark : Char}

theorem normalize_eq (text : List Char) : normalize text = 'v' :: unprefixed (trim text) := by
  unfold normalize
  split
  · rename_i same
    rw [same, unprefixed]
  · rename_i other
    rw [unprefixed]
    exact other

/-- A spelling is the text itself, trimmed and without one leading `v`. -/
theorem Spelling.Spells.text_eq {spelling : Spelling} (spells : spelling.Spells text) :
    spelling.text = unprefixed (trim text) :=
  (List.cons.inj (spells.written.symm.trans (normalize_eq text))).2

theorem decimalValue_eq (decimal : ∀ c ∈ digits, c.isDigit = true) :
    decimalValue digits = decimalNumber digits := by
  rw [decimalNumber_eq_ofDigits, decimalValue]
  congr 1
  refine List.map_congr_left fun c member => ?_
  have value := (digitValue_of_isDigit (decimal c (List.mem_reverse.mp member))).1
  omega

theorem isDigit_iff {c : Char} : c.isDigit = true ↔ '0'.toNat ≤ c.toNat ∧ c.toNat ≤ '9'.toNat := by
  simp [Char.isDigit, UInt32.le_iff_toNat_le]

theorem isDecimal_iff {c : Char} :
    isDecimal c = true ↔ ∃ first ∈ digitZeros, first ≤ c.toNat ∧ c.toNat ≤ first + 9 := by
  simp [isDecimal, digitValue?]

theorem isDecimal_of_isDigit {c : Char} (digit : c.isDigit = true) : isDecimal c = true :=
  isDecimal_iff.mpr ⟨'0'.toNat, by decide, isDigit_iff.mp digit⟩

/-- Other scripts have their digits beyond ASCII. -/
theorem isDigit_of_isDecimal {c : Char} (decimal : isDecimal c = true) (ascii : c.toNat < 128) :
    c.isDigit = true := by
  obtain ⟨first, member, bounds⟩ := isDecimal_iff.mp decimal
  have beyond : ∀ first ∈ digitZeros, first = '0'.toNat ∨ 128 ≤ first := by decide
  rcases beyond first member with rfl | far
  · exact isDigit_iff.mpr bounds
  · exact absurd (far.trans bounds.1) (Nat.not_le.mpr ascii)

/-- A first digit is one from one to nine, or else a zero. -/
theorem isDigit_iff_zero_or {c : Char} : c.isDigit = true ↔ c = '0' ∨ '1' ≤ c ∧ c ≤ '9' := by
  have codes : ('1' ≤ c ↔ 49 ≤ c.toNat) ∧ (c ≤ '9' ↔ c.toNat ≤ 57) := ⟨Iff.rfl, Iff.rfl⟩
  have bounds : c.isDigit = true ↔ 48 ≤ c.toNat ∧ c.toNat ≤ 57 := isDigit_iff
  rw [bounds, codes.1, codes.2, ← Char.toNat_inj, show '0'.toNat = 48 from rfl]
  omega

theorem IsNumeral.isNumber (is : IsNumeral digits) : IsNumber digits := by
  obtain ⟨first, rest, rfl⟩ := List.exists_cons_of_ne_nil is.filled
  rcases isDigit_iff_zero_or.mp (is.decimal first List.mem_cons_self) with rfl | nonzero
  · left
    exact is.unpadded rfl
  · right
    refine ⟨first, rest, rfl, nonzero, fun c member => ?_⟩
    exact isDecimal_of_isDigit (is.decimal c (List.mem_cons_of_mem _ member))

theorem isNumeral_of_isNumber (number : IsNumber digits) (ascii : ∀ c ∈ digits, c.toNat < 128) :
    IsNumeral digits := by
  rcases number with rfl | ⟨first, rest, rfl, nonzero, decimal⟩
  · exact ⟨by simp, List.forall_mem_singleton.mpr rfl, fun _ => rfl⟩
  · refine ⟨by simp, fun c member => ?_, fun padded => ?_⟩
    · rcases List.mem_cons.mp member with rfl | inside
      · exact isDigit_iff_zero_or.mpr (.inr nonzero)
      · exact isDigit_of_isDecimal (decimal c inside) (ascii c member)
    · obtain rfl := Option.some.inj padded
      exact absurd nonzero (by decide)

theorem isName_iff : IsName text ↔ IsIdentifier text := by
  have sign (c : Char) : isIdentifierChar c = true ↔ c.isAlphanum = true ∨ c = '-' := by
    simp [isIdentifierChar]
  constructor
  · intro is
    exact ⟨is.filled, fun c member => (sign c).mpr (is.signs c member)⟩
  · intro is
    exact ⟨is.1, fun c member => (sign c).mp (is.2 c member)⟩

theorem isPadded_iff : IsPadded text ↔ hasLeadingZero text = true := by
  constructor
  · rintro ⟨digits, c, rest, rfl⟩
    simpa [hasLeadingZero, isNumeric] using digits
  · intro padded
    simp only [hasLeadingZero, isNumeric, Bool.and_eq_true, decide_eq_true_eq, beq_iff_eq,
      List.all_eq_true] at padded
    obtain ⟨⟨⟨_, digits⟩, long⟩, first⟩ := padded
    cases text with
    | nil => cases first
    | cons d behind =>
      obtain rfl := Option.some.inj first
      cases behind with
      | nil => simp at long
      | cons c rest => exact ⟨digits, c, rest, rfl⟩

theorem dotted_iff :
    Dotted text names ↔
      names ≠ [] ∧ (∀ name ∈ names, IsIdentifier name) ∧ text = join ['.'] names := by
  constructor
  · intro dotted
    induction dotted with
    | last is => exact ⟨by simp, by simpa using isName_iff.mp is, rfl⟩
    | @more name text names is behind ih =>
      obtain ⟨present, identifiers, rfl⟩ := ih
      obtain ⟨next, others, rfl⟩ := List.exists_cons_of_ne_nil present
      refine ⟨by simp, ?_, by simp [join]⟩
      exact List.forall_mem_cons.mpr ⟨isName_iff.mp is, identifiers⟩
  · rintro ⟨present, identifiers, rfl⟩
    induction names with
    | nil => exact absurd rfl present
    | cons name names ih =>
      obtain ⟨here, onward⟩ := List.forall_mem_cons.mp identifiers
      cases names with
      | nil => exact .last (isName_iff.mpr here)
      | cons next names =>
        have behind := Dotted.more (isName_iff.mpr here) (ih (by simp) onward)
        simpa [join] using behind

theorem marked_iff :
    Marked mark text names ↔ (∀ name ∈ names, IsIdentifier name) ∧ text = markedText mark names := by
  constructor
  · intro marked
    cases marked with
    | absent => exact ⟨nofun, rfl⟩
    | present dotted =>
      obtain ⟨present, identifiers, rfl⟩ := dotted_iff.mp dotted
      exact ⟨identifiers, by rw [markedText, if_neg present]⟩
  · rintro ⟨identifiers, rfl⟩
    by_cases present : names = []
    · rw [markedText, if_pos present, present]
      exact .absent
    · rw [markedText, if_neg present]
      exact .present (dotted_iff.mpr ⟨present, identifiers, rfl⟩)

/-- What the rules derive is spelled as they say. -/
theorem Derives.exists_spelling {version : SemVer} (derives : Derives text version) :
    ∃ spelling : Spelling, spelling.WellFormed ∧ spelling.text = text ∧
      spelling.version = version := by
  cases derives with
  | one is => exact ⟨.single _, is.isNumber, rfl, by rw [Spelling.version, decimalValue_eq is.decimal]⟩
  | two is is' =>
    refine ⟨.pair _ _, ⟨is.isNumber, is'.isNumber⟩, rfl, ?_⟩
    rw [Spelling.version, decimalValue_eq is.decimal, decimalValue_eq is'.decimal]
  | three is is' is'' before unpadded behind =>
    obtain ⟨identifiers, rfl⟩ := marked_iff.mp before
    obtain ⟨identifiers', rfl⟩ := marked_iff.mp behind
    refine ⟨.full _ _ _ _ _, ⟨⟨is.isNumber, is'.isNumber, is''.isNumber⟩, ?_, identifiers'⟩, rfl, ?_⟩
    · intro name member
      refine ⟨identifiers name member, ?_⟩
      exact Bool.eq_false_iff.mpr fun padded => unpadded name member (isPadded_iff.mpr padded)
    · rw [Spelling.version, decimalValue_eq is.decimal, decimalValue_eq is'.decimal,
        decimalValue_eq is''.decimal]

theorem Spelling.derives {spelling : Spelling} (wellFormed : spelling.WellFormed)
    (ascii : ∀ c ∈ spelling.text, c.toNat < 128) : Derives spelling.text spelling.version := by
  cases spelling with
  | single major =>
    have is := isNumeral_of_isNumber wellFormed ascii
    rw [Spelling.version, ← decimalValue_eq is.decimal]
    exact .one is
  | pair major minor =>
    simp only [Spelling.text, List.forall_mem_append, List.forall_mem_cons] at ascii
    obtain ⟨ascii, -, ascii'⟩ := ascii
    have is := isNumeral_of_isNumber wellFormed.1 ascii
    have is' := isNumeral_of_isNumber wellFormed.2 ascii'
    rw [Spelling.version, ← decimalValue_eq is.decimal, ← decimalValue_eq is'.decimal]
    exact .two is is'
  | full major minor patch prerelease build =>
    obtain ⟨⟨number, number', number''⟩, identifiers, identifiers'⟩ := wellFormed
    simp only [Spelling.text, List.forall_mem_append, List.forall_mem_cons] at ascii
    obtain ⟨ascii, -, ascii', -, ascii'', -⟩ := ascii
    have is := isNumeral_of_isNumber number ascii
    have is' := isNumeral_of_isNumber number' ascii'
    have is'' := isNumeral_of_isNumber number'' ascii''
    rw [Spelling.version, ← decimalValue_eq is.decimal, ← decimalValue_eq is'.decimal,
      ← decimalValue_eq is''.decimal]
    refine .three is is' is'' (marked_iff.mpr ⟨fun name member => (identifiers name member).1, rfl⟩) ?_
      (marked_iff.mpr ⟨identifiers', rfl⟩)
    intro name member padded
    have unpadded := (identifiers name member).2
    rw [isPadded_iff.mp padded] at unpadded
    cases unpadded

theorem infix_join (member : name ∈ names) : name <:+: join ['.'] names := by
  induction names with
  | nil => cases member
  | cons first names ih =>
    cases names with
    | nil =>
      obtain rfl := List.mem_singleton.mp member
      exact List.infix_rfl
    | cons next names =>
      rw [join]
      · rcases List.mem_cons.mp member with rfl | inside
        · exact (List.prefix_append _ _).isInfix.trans (List.prefix_append _ _).isInfix
        · exact (ih inside).trans (List.suffix_append _ _).isInfix
      · exact List.cons_ne_nil next names

theorem infix_markedText (member : name ∈ names) : name <:+: markedText mark names := by
  rw [markedText, if_neg (List.ne_nil_of_mem member)]
  exact (infix_join member).trans (List.suffix_cons _ _).isInfix

/-- What is read as a number stands in the text, apart from the zero that a missing number counts as. -/
theorem Spelling.mem_numbers {spelling : Spelling} (wellFormed : spelling.WellFormed)
    {number : List Char} (member : number ∈ spelling.shape.numbers) :
    number = ['0'] ∨ number <:+: spelling.text ∧ (IsNumber number ∨ isNumeric number = true) := by
  have first (front back : List Char) : front <:+: front ++ back := (List.prefix_append _ _).isInfix
  have behind {part rest : List Char} (front : List Char) (inside : part <:+: rest) :
      part <:+: front ++ '.' :: rest :=
    inside.trans ((List.suffix_cons _ _).trans (List.suffix_append _ _)).isInfix
  cases spelling with
  | single major =>
    simp only [Spelling.shape, Shape.numbers, List.filter_nil, List.append_nil, List.mem_cons,
      List.not_mem_nil, or_false] at member
    rcases member with rfl | rfl | rfl
    · exact .inr ⟨List.infix_rfl, .inl wellFormed⟩
    · exact .inl rfl
    · exact .inl rfl
  | pair major minor =>
    simp only [Spelling.shape, Shape.numbers, List.filter_nil, List.append_nil, List.mem_cons,
      List.not_mem_nil, or_false] at member
    rcases member with rfl | rfl | rfl
    · exact .inr ⟨first _ _, .inl wellFormed.1⟩
    · exact .inr ⟨behind _ List.infix_rfl, .inl wellFormed.2⟩
    · exact .inl rfl
  | full major minor patch prerelease build =>
    obtain ⟨⟨isMajor, isMinor, isPatch⟩, _⟩ := wellFormed
    simp only [Spelling.shape, Shape.numbers, List.mem_append, List.mem_cons, List.not_mem_nil,
      or_false, List.mem_filter] at member
    rcases member with (rfl | rfl | rfl) | ⟨inside, numeric⟩
    · exact .inr ⟨first _ _, .inl isMajor⟩
    · exact .inr ⟨behind _ (first _ _), .inl isMinor⟩
    · exact .inr ⟨behind _ (behind _ (first _ _)), .inl isPatch⟩
    · refine .inr ⟨behind _ (behind _ ?_), .inr numeric⟩
      have marked : number <:+: markedText '-' prerelease := infix_markedText inside
      exact (marked.trans (first _ _)).trans (List.suffix_append _ _).isInfix

theorem unprefixed_suffix (text : List Char) : unprefixed text <:+ text := by
  unfold unprefixed
  split
  · exact List.suffix_cons _ _
  · exact List.suffix_rfl

theorem isInfix_trim (text : List Char) : trim text <:+: text := by
  obtain ⟨lead, trail, split, _, _⟩ := eq_trim text
  exact ⟨lead, trail, split.symm⟩

theorem isInfix_unprefixed_trim (text : List Char) : unprefixed (trim text) <:+: text :=
  (unprefixed_suffix _).isInfix.trans (isInfix_trim text)

/-- No run of digits, of whatever script, is longer than what is read as a number. -/
def ShortNumbers (text : List Char) : Prop :=
  ∀ run, run <:+: text → (∀ c ∈ run, isDecimal c = true) → run.length ≤ 4300

theorem ShortNumbers.part {piece : List Char} (short : ShortNumbers text) (inside : piece <:+: text) :
    ShortNumbers piece :=
  fun run within => short run (within.trans inside)

theorem isDecimal_of_isNumber (number : IsNumber digits) : ∀ c ∈ digits, isDecimal c = true := by
  rcases number with rfl | ⟨first, rest, rfl, nonzero, decimal⟩
  · exact List.forall_mem_singleton.mpr (by decide)
  · have start : isDecimal first = true := isDecimal_of_isDigit (isDigit_iff_zero_or.mpr (.inr nonzero))
    exact List.forall_mem_cons.mpr ⟨start, decimal⟩

/-- A text without a run of too many digits is legible. -/
theorem ShortNumbers.legible (short : ShortNumbers text) : Legible text := by
  intro shape recognised number member
  obtain ⟨spelling, spells, rfl⟩ := spells_of_shape? recognised
  rcases spelling.mem_numbers spells.wellFormed member with rfl | ⟨inside, kind⟩
  · decide
  · have within : number <:+: text := (spells.text_eq ▸ inside).trans (isInfix_unprefixed_trim text)
    refine short number within ?_
    rcases kind with is | numeric
    · exact isDecimal_of_isNumber is
    · exact fun c member => isDecimal_of_isDigit ((isDigit_of_isNumeric numeric).2 c member)

/-- In ASCII there are no digits of other scripts. -/
theorem ShortRuns.legible (short : ShortRuns text) (ascii : ∀ c ∈ text, c.toNat < 128) :
    Legible text := by
  refine ShortNumbers.legible fun run inside decimal => short run inside fun c member => ?_
  exact isDigit_of_isDecimal (decimal c member) (ascii c (inside.subset member))

/-- Among texts in ASCII, the versions are those that the rules derive. -/
theorem version?_eq_some_iff_derives (ascii : ∀ c ∈ text, c.toNat < 128) {version : SemVer} :
    version? text = some version ↔ Derives (unprefixed (trim text)) version := by
  rw [version?_eq_some_iff]
  constructor
  · rintro ⟨spelling, spells, rfl⟩
    rw [← spells.text_eq]
    refine Spelling.derives spells.wellFormed fun c member => ascii c ?_
    exact (isInfix_unprefixed_trim text).subset (spells.text_eq ▸ member)
  · intro derives
    obtain ⟨spelling, wellFormed, written, same⟩ := derives.exists_spelling
    exact ⟨spelling, ⟨wellFormed, by rw [written, normalize_eq]⟩, same⟩

/-- A text in ASCII whose runs of digits are short passes for a version exactly if the grammar derives it,
trimmed and without one leading `v`; once normalized it is read as the version that the grammar derives,
with the values of its numbers and the identifiers of its pre-release. -/
theorem accepts_iff_derives (text : List Char) (ascii : ∀ c ∈ text, c.toNat < 128)
    (short : ShortRuns text) :
    (∃ like, isSemanticLike text = .ok like ∧
      (like = true ↔ ∃ version, Derives (unprefixed (trim text)) version)) ∧
    ∀ version, parse (normalize text) = .ok (some version) ↔
      Derives (unprefixed (trim text)) version := by
  have legible := short.legible ascii
  constructor
  · refine ⟨(version? text).isSome, legible.isSemanticLike_eq, ?_⟩
    rw [Option.isSome_iff_exists]
    exact exists_congr fun version => version?_eq_some_iff_derives ascii
  · intro version
    rw [legible.parse_eq, Except.ok.injEq]
    exact version?_eq_some_iff_derives ascii

theorem accepts_iff_derives_sample :
    (∀ c ∈ " v1.2.3-rc-1.0a+b1.07".toList, c.toNat < 128) ∧ ShortRuns " v1.2.3-rc-1.0a+b1.07".toList ∧
      Derives "1.2.3-rc-1.0a+b1.07".toList ⟨1, 2, 3, ["rc-1".toList, "0a".toList]⟩ := by
  have ascii : ∀ c ∈ " v1.2.3-rc-1.0a+b1.07".toList, c.toNat < 128 := by simp
  have short : ShortRuns " v1.2.3-rc-1.0a+b1.07".toList := fun run inside _ =>
    inside.length_le.trans (by decide)
  refine ⟨ascii, short, ?_⟩
  exact ((accepts_iff_derives _ ascii short).2 _).mp (by decide +kernel)

end InfraPins.Version
