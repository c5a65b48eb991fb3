import Mathlib.Data.Char
import Mathlib.Data.List.Lex
import Mathlib.Data.Nat.Digits.Lemmas
import Mathlib.Data.Prod.Lex
import Mathlib.Data.Sum.Order
import InfraPins.Proofs.Result
import InfraPins.Proofs.Version.Legible

/-! The precedence of versions is a linear order. A version has a rank: its numbers, then its
pre-release, where a release is above every pre-release, identifiers count one after another, and
numbers are below words. Comparing two legible versions compares their ranks. -/

namespace InfraPins.Version

open Text

/-- The rank of an identifier: a number by its value, below every word. -/
def identifierRank (identifier : List Char) : ℕ ⊕ₗ List Char :=
  if isNumeric identifier then toLex (.inl (decimalNumber identifier)) else toLex (.inr identifier)

/-- The rank of a pre-release; a version without one is above those with one. -/
def prereleaseRank : List (List Char) → WithTop (List (ℕ ⊕ₗ List Char))
  | [] => ⊤
  | identifiers => (identifiers.map identifierRank : List (ℕ ⊕ₗ List Char))

def Rank : Type := ℕ ×ₗ ℕ ×ₗ ℕ ×ₗ WithTop (List (ℕ ⊕ₗ List Char))

instance : LinearOrder Rank :=
  inferInstanceAs (LinearOrder (ℕ ×ₗ ℕ ×ₗ ℕ ×ₗ WithTop (List (ℕ ⊕ₗ List Char))))

/-- The rank of a version: its numbers count first, the major one most, and then its pre-release. -/
def rank (version : SemVer) : Rank :=
  toLex (version.major, toLex (version.minor, toLex (version.patch,
    prereleaseRank version.prerelease)))

section Compares

variable {α β : Type} [LinearOrder α] [LinearOrder β] {a a' : α} {b b' : β} {order order' : Ordering}

theorem compares_compare (number number' : Nat) : (Ord.compare number number').Compares number number' :=
  cmp_eq_compare number number' ▸ cmp_compares number number'

theorem compares_toLex (first : order.Compares a a') (second : order'.Compares b b') :
    (order.then order').Compares (toLex (a, b)) (toLex (a', b')) := by
  cases order with
  | lt => exact Prod.Lex.toLex_lt_toLex.mpr (.inl first)
  | gt => exact Prod.Lex.toLex_lt_toLex.mpr (.inl first)
  | eq =>
    obtain rfl : a = a' := first
    cases order' with
    | lt => exact Prod.Lex.toLex_lt_toLex.mpr (.inr ⟨rfl, second⟩)
    | gt => exact Prod.Lex.toLex_lt_toLex.mpr (.inr ⟨rfl, second⟩)
    | eq => exact congrArg (fun b => toLex (a, b)) second

theorem compares_cons {rest rest' : List α} (first : order.Compares a a')
    (second : order'.Compares rest rest') :
    (order.then order').Compares (a :: rest) (a' :: rest') := by
  cases order with
  | lt => exact List.cons_lt_cons_iff.mpr (.inl first)
  | gt => exact List.cons_lt_cons_iff.mpr (.inl first)
  | eq =>
    obtain rfl : a = a' := first
    cases order' with
    | lt => exact List.cons_lt_cons_iff.mpr (.inr ⟨rfl, second⟩)
    | gt => exact List.cons_lt_cons_iff.mpr (.inr ⟨rfl, second⟩)
    | eq => exact congrArg (a :: ·) second

end Compares

/-- What a digit adds to the number that it stands in. -/
def digitValue (digit : Char) : Nat :=
  (digitValue? digit).getD 0

theorem decimalNumber_concat (digits : List Char) (digit : Char) :
    decimalNumber (digits ++ [digit]) = decimalNumber digits * 10 + digitValue digit := by
  simp [decimalNumber, digitValue]

theorem decimalNumber_eq_ofDigits (digits : List Char) :
    decimalNumber digits = Nat.ofDigits 10 (digits.reverse.map digitValue) := by
  induction digits using List.reverseRecOn with
  | nil => rfl
  | append_singleton digits digit ih =>
    rw [decimalNumber_concat, ih, List.reverse_append, List.reverse_singleton, List.singleton_append,
      List.map_cons, Nat.ofDigits_cons]
    ring

theorem digitValue_of_isDigit {c : Char} (digit : c.isDigit = true) :
    digitValue c + '0'.toNat = c.toNat ∧ c.toNat ≤ '9'.toNat := by
  have bounds : '0'.toNat ≤ c.toNat ∧ c.toNat ≤ '9'.toNat := by
    simpa [Char.isDigit, UInt32.le_iff_toNat_le] using digit
  have found : digitValue? c = some (c.toNat - '0'.toNat) := by
    have first : digitZeros.find? (fun first => first ≤ c.toNat && c.toNat ≤ first + 9) =
        some '0'.toNat := by
      rw [digitZeros, List.find?_cons_of_pos]
      · rfl
      · simpa using bounds
    rw [digitValue?, first]
    rfl
  rw [digitValue, found, Option.getD_some]
  omega

theorem isDigit_of_isNumeric {number : List Char} (numeric : isNumeric number = true) :
    number ≠ [] ∧ ∀ c ∈ number, c.isDigit = true := by
  simpa [isNumeric] using numeric

/-- Digits are told apart by their values. -/
theorem map_ofNat_map_digitValue {number : List Char} (numeric : isNumeric number = true) :
    (number.map digitValue).map (fun value => Char.ofNat (value + '0'.toNat)) = number := by
  rw [List.map_map]
  refine (List.map_congr_left fun c inside => ?_).trans number.map_id
  rw [Function.comp_apply, (digitValue_of_isDigit ((isDigit_of_isNumeric numeric).2 c inside)).1,
    Char.ofNat_toNat, id]

/-- A number without a superfluous leading zero is written with its digits. -/
theorem digits_decimalNumber {number : List Char} (numeric : isNumeric number = true)
    (unpadded : hasLeadingZero number = false) (nonzero : number ≠ ['0']) :
    Nat.digits 10 (decimalNumber number) = number.reverse.map digitValue := by
  obtain ⟨present, digits⟩ := isDigit_of_isNumeric numeric
  rw [decimalNumber_eq_ofDigits]
  refine Nat.digits_ofDigits 10 (by decide) _ (fun value member => ?_) fun _ => ?_
  · obtain ⟨c, inside, rfl⟩ := List.mem_map.mp member
    have bound := digitValue_of_isDigit (digits c (List.mem_reverse.mp inside))
    have zero : '0'.toNat = 48 := rfl
    have nine : '9'.toNat = 57 := rfl
    omega
  · -- The last of the reversed digits is the first, which is no zero.
    obtain ⟨first, rest, rfl⟩ := List.exists_cons_of_ne_nil present
    have different : first ≠ '0' := by
      rintro rfl
      cases rest with
      | nil => exact nonzero rfl
      | cons second rest => simp [hasLeadingZero, numeric] at unpadded
    simp only [List.reverse_cons, List.map_append, List.map_singleton, List.getLast_concat]
    intro zero
    have code := (digitValue_of_isDigit (digits first List.mem_cons_self)).1
    rw [zero, Nat.zero_add] at code
    exact different (Char.toNat_inj.mp code.symm)

/-- Numbers without superfluous leading zeros are told apart by their values. -/
theorem eq_of_decimalNumber_eq {left right : List Char} (numeric : isNumeric left = true)
    (numeric' : isNumeric right = true) (unpadded : hasLeadingZero left = false)
    (unpadded' : hasLeadingZero right = false)
    (same : decimalNumber left = decimalNumber right) : left = right := by
  have digits := digits_decimalNumber numeric unpadded
  have digits' := digits_decimalNumber numeric' unpadded'
  have zero {number : List Char} (numeric : isNumeric number = true)
      (digits : number ≠ ['0'] → Nat.digits 10 (decimalNumber number) = number.reverse.map digitValue)
      (zero : decimalNumber number = 0) : number = ['0'] := by
    by_contra nonzero
    have empty := digits nonzero
    rw [zero, Nat.digits_zero, eq_comm, List.map_eq_nil_iff, List.reverse_eq_nil_iff] at empty
    rw [empty] at numeric
    cases numeric
  by_cases left_zero : left = ['0']
  · rw [left_zero]
    exact (zero numeric' digits' (same.symm.trans (by rw [left_zero]; rfl))).symm
  · by_cases right_zero : right = ['0']
    · exact absurd (zero numeric digits (same.trans (by rw [right_zero]; rfl))) left_zero
    · have values : left.map digitValue = right.map digitValue := by
        have reversed := (digits left_zero).symm.trans ((congrArg _ same).trans (digits' right_zero))
        simpa [← List.map_reverse] using congrArg List.reverse reversed
      calc left = (left.map digitValue).map _ := (map_ofNat_map_digitValue numeric).symm
        _ = (right.map digitValue).map _ := by rw [values]
        _ = right := map_ofNat_map_digitValue numeric'

variable {left right : List Char} {lefts rights : List (List Char)} {order : Ordering}

/-- Identifiers without superfluous leading zeros are told apart by their ranks. -/
theorem eq_of_identifierRank_eq (unpadded : hasLeadingZero left = false)
    (unpadded' : hasLeadingZero right = false) (same : identifierRank left = identifierRank right) :
    left = right := by
  unfold identifierRank at same
  cases numeric : isNumeric left <;> cases numeric' : isNumeric right <;>
    simp [numeric, numeric'] at same
  · exact same
  · exact eq_of_decimalNumber_eq numeric numeric' unpadded unpadded' same

theorem eq_of_readNumber {digits : List Char} {number : Nat} (read : readNumber digits = .ok number) :
    decimalNumber digits = number := by
  unfold readNumber at read
  split at read
  · cases read
  · exact Except.ok.inj read

theorem compares_of_compareIdentifier (unpadded : hasLeadingZero left = false)
    (unpadded' : hasLeadingZero right = false) (different : left ≠ right)
    (told : compareIdentifier left right = .ok order) :
    order.Compares (identifierRank left) (identifierRank right) := by
  unfold compareIdentifier at told
  unfold identifierRank
  cases numeric : isNumeric left <;> cases numeric' : isNumeric right <;>
    simp only [numeric, numeric', Bool.false_eq_true, if_false, if_true] at told ⊢
  · obtain rfl := Except.ok.inj told
    split
    · rename_i below
      exact Sum.Lex.inr_lt_inr_iff.mpr below
    · rename_i above
      exact Sum.Lex.inr_lt_inr_iff.mpr ((lt_or_gt_of_ne different).resolve_left above)
  · obtain rfl := Except.ok.inj told
    exact Sum.Lex.inl_lt_inr _ _
  · obtain rfl := Except.ok.inj told
    exact Sum.Lex.inl_lt_inr _ _
  · obtain ⟨first, read, told⟩ := Result.bind_eq_ok.mp told
    obtain ⟨second, read', told⟩ := Result.bind_eq_ok.mp told
    obtain rfl := eq_of_readNumber read
    obtain rfl := eq_of_readNumber read'
    obtain rfl := Except.ok.inj told
    have apart : decimalNumber left ≠ decimalNumber right := fun same => different
      (eq_of_decimalNumber_eq numeric numeric' unpadded unpadded' same)
    split
    · rename_i below
      exact Sum.Lex.inl_lt_inl_iff.mpr below
    · rename_i above
      exact Sum.Lex.inl_lt_inl_iff.mpr ((lt_or_gt_of_ne apart).resolve_left above)

/-- Two lists of identifiers are in the order of their ranks, if their order can be told. -/
theorem compares_of_compareIdentifiers
    (unpadded : ∀ identifier ∈ lefts, hasLeadingZero identifier = false)
    (unpadded' : ∀ identifier ∈ rights, hasLeadingZero identifier = false)
    (told : compareIdentifiers lefts rights = .ok order) :
    order.Compares (lefts.map identifierRank) (rights.map identifierRank) := by
  induction lefts generalizing rights with
  | nil =>
    cases rights with
    | nil =>
      obtain rfl := Except.ok.inj told
      exact rfl
    | cons right rights =>
      obtain rfl := Except.ok.inj told
      exact List.nil_lt_cons _ _
  | cons left lefts ih =>
    cases rights with
    | nil =>
      obtain rfl := Except.ok.inj told
      exact List.nil_lt_cons _ _
    | cons right rights =>
      obtain ⟨first, others⟩ := List.forall_mem_cons.mp unpadded
      obtain ⟨first', others'⟩ := List.forall_mem_cons.mp unpadded'
      unfold compareIdentifiers at told
      by_cases same : left = right
      · rw [if_pos same] at told
        have level : Ordering.eq.Compares (identifierRank left) (identifierRank right) :=
          congrArg identifierRank same
        exact compares_cons level (ih others others' told)
      · rw [if_neg same] at told
        have compares := compares_of_compareIdentifier first first' same told
        cases order with
        | lt => exact List.cons_lt_cons_iff.mpr (.inl compares)
        | gt => exact List.cons_lt_cons_iff.mpr (.inl compares)
        | eq => exact absurd (eq_of_identifierRank_eq first first' compares) same

/-- Two pre-releases are in the order of their ranks, if their order can be told. -/
theorem compares_of_comparePrerelease
    (unpadded : ∀ identifier ∈ lefts, hasLeadingZero identifier = false)
    (unpadded' : ∀ identifier ∈ rights, hasLeadingZero identifier = false)
    (told : comparePrerelease lefts rights = .ok order) :
    order.Compares (prereleaseRank lefts) (prereleaseRank rights) := by
  cases lefts with
  | nil =>
    cases rights with
    | nil =>
      obtain rfl := Except.ok.inj told
      exact rfl
    | cons right rights =>
      obtain rfl := Except.ok.inj told
      exact WithTop.coe_lt_top _
  | cons left lefts =>
    cases rights with
    | nil =>
      obtain rfl := Except.ok.inj told
      exact WithTop.coe_lt_top _
    | cons right rights =>
      have compares := compares_of_compareIdentifiers unpadded unpadded' told
      cases order with
      | lt => exact WithTop.coe_lt_coe.mpr compares
      | gt => exact WithTop.coe_lt_coe.mpr compares
      | eq => exact congrArg WithTop.some compares

/-- An identifier that, if it is a number, has few enough digits to be read. -/
def IsShort (identifier : List Char) : Prop :=
  isNumeric identifier = true → identifier.length ≤ maxDigits

theorem compareIdentifier_of_short (short : IsShort left) (short' : IsShort right) :
    ∃ order, compareIdentifier left right = .ok order := by
  unfold compareIdentifier
  cases numeric : isNumeric left <;> cases numeric' : isNumeric right
  · exact ⟨_, rfl⟩
  · exact ⟨_, rfl⟩
  · exact ⟨_, rfl⟩
  · exact ⟨_, by
      simp only [readNumber_eq_ok (short numeric), readNumber_eq_ok (short' numeric')]
      rfl⟩

theorem compareIdentifiers_of_short (short : ∀ identifier ∈ lefts, IsShort identifier)
    (short' : ∀ identifier ∈ rights, IsShort identifier) :
    ∃ order, compareIdentifiers lefts rights = .ok order := by
  induction lefts generalizing rights with
  | nil =>
    cases rights with
    | nil => exact ⟨_, rfl⟩
    | cons right rights => exact ⟨_, rfl⟩
  | cons left lefts ih =>
    cases rights with
    | nil => exact ⟨_, rfl⟩
    | cons right rights =>
      obtain ⟨first, others⟩ := List.forall_mem_cons.mp short
      obtain ⟨first', others'⟩ := List.forall_mem_cons.mp short'
      unfold compareIdentifiers
      split
      · exact ih others others'
      · exact compareIdentifier_of_short first first'

/-- The order of pre-releases whose identifiers are short can be told. -/
theorem comparePrerelease_of_short (short : ∀ identifier ∈ lefts, IsShort identifier)
    (short' : ∀ identifier ∈ rights, IsShort identifier) :
    ∃ order, comparePrerelease lefts rights = .ok order := by
  cases lefts with
  | nil =>
    cases rights with
    | nil => exact ⟨_, rfl⟩
    | cons right rights => exact ⟨_, rfl⟩
  | cons left lefts =>
    cases rights with
    | nil => exact ⟨_, rfl⟩
    | cons right rights => exact compareIdentifiers_of_short short short'

theorem eq_of_map_identifierRank_eq
    (unpadded : ∀ identifier ∈ lefts, hasLeadingZero identifier = false)
    (unpadded' : ∀ identifier ∈ rights, hasLeadingZero identifier = false)
    (same : lefts.map identifierRank = rights.map identifierRank) : lefts = rights := by
  induction lefts generalizing rights with
  | nil => exact (List.map_eq_nil_iff.mp same.symm).symm
  | cons left lefts ih =>
    obtain ⟨right, rights, rfl, first, rest⟩ := List.map_eq_cons_iff.mp same.symm
    obtain ⟨here, others⟩ := List.forall_mem_cons.mp unpadded
    obtain ⟨here', others'⟩ := List.forall_mem_cons.mp unpadded'
    rw [eq_of_identifierRank_eq here here' first.symm, ih others others' rest.symm]

/-- A version whose pre-release has no number with a superfluous leading zero. -/
def Unpadded (version : SemVer) : Prop :=
  ∀ identifier ∈ version.prerelease, hasLeadingZero identifier = false

theorem compares_of_compareSemVer {version version' : SemVer} (unpadded : Unpadded version)
    (unpadded' : Unpadded version') (told : compareSemVer version version' = .ok order) :
    order.Compares (rank version) (rank version') := by
  have numbered {rest : Ordering}
      (compares : rest.Compares (prereleaseRank version.prerelease)
        (prereleaseRank version'.prerelease)) :
      ((compareNumbers version version').then rest).Compares (rank version) (rank version') := by
    rw [compareNumbers, Ordering.then_assoc, Ordering.then_assoc]
    exact compares_toLex (compares_compare version.major version'.major)
      (compares_toLex (compares_compare version.minor version'.minor)
        (compares_toLex (compares_compare version.patch version'.patch) compares))
  have whole := numbered (cmp_compares _ _)
  unfold compareSemVer at told
  cases numbers : compareNumbers version version' with
  | eq =>
    rw [numbers] at told
    have chained := numbered (compares_of_comparePrerelease unpadded unpadded' told)
    rw [numbers] at chained
    exact chained
  | lt | gt =>
    rw [numbers] at told whole
    obtain rfl := Except.ok.inj told
    exact whole

theorem compareSemVer_eq_ok {version version' : SemVer} (unpadded : Unpadded version)
    (unpadded' : Unpadded version') (short : ∀ identifier ∈ version.prerelease, IsShort identifier)
    (short' : ∀ identifier ∈ version'.prerelease, IsShort identifier) :
    compareSemVer version version' = .ok (cmp (rank version) (rank version')) := by
  have told : ∃ order, compareSemVer version version' = .ok order := by
    unfold compareSemVer
    cases compareNumbers version version' with
    | eq => exact comparePrerelease_of_short short short'
    | lt => exact ⟨_, rfl⟩
    | gt => exact ⟨_, rfl⟩
  obtain ⟨order, told⟩ := told
  rw [told, (compares_of_compareSemVer unpadded unpadded' told).cmp_eq]

/-- Versions are told apart by their ranks. -/
theorem eq_of_rank_eq {version version' : SemVer} (unpadded : Unpadded version)
    (unpadded' : Unpadded version') (same : rank version = rank version') :
    version = version' := by
  obtain ⟨major, minor, patch, prerelease⟩ := version
  obtain ⟨major', minor', patch', prerelease'⟩ := version'
  obtain ⟨rfl, rest⟩ := Prod.mk.inj same
  obtain ⟨rfl, rest⟩ := Prod.mk.inj rest
  obtain ⟨rfl, rest⟩ := Prod.mk.inj rest
  have identifiers : prerelease = prerelease' := by
    cases prerelease with
    | nil =>
      cases prerelease' with
      | nil => rfl
      | cons first others => cases rest
    | cons first others =>
      cases prerelease' with
      | nil => cases rest
      | cons first' others' =>
        exact eq_of_map_identifierRank_eq unpadded unpadded' (WithTop.coe_injective rest)
  rw [identifiers]

variable {text text' : List Char} {version version' : SemVer}

/-- A text that is a version has no padded number in its pre-release. -/
theorem unpadded_of_version? (is : version? text = some version) : Unpadded version := by
  obtain ⟨spelling, spells, rfl⟩ := version?_eq_some_iff.mp is
  intro identifier member
  have wellFormed := spells.wellFormed
  cases spelling with
  | full major minor patch prerelease build => exact (wellFormed.2.1 identifier member).2
  | _ => cases member

theorem Legible.short (legible : Legible text) (is : version? text = some version) :
    ∀ identifier ∈ version.prerelease, IsShort identifier := by
  obtain ⟨spelling, spells, rfl⟩ := version?_eq_some_iff.mp is
  intro identifier member numeric
  refine legible _ spells.shape?_eq identifier (List.mem_append_right _ ?_)
  rw [← spelling.version_shape] at member
  exact List.mem_filter.mpr ⟨member, numeric⟩

theorem compare_eq_ok (legible : Legible text) (legible' : Legible text')
    (is : version? text = some version) (is' : version? text' = some version') :
    compare text text' = .ok (cmp (rank version) (rank version')) := by
  rw [compare, legible.parse_eq, legible'.parse_eq, is, is']
  exact compareSemVer_eq_ok (unpadded_of_version? is) (unpadded_of_version? is') (legible.short is)
    (legible'.short is')

theorem version?_of_parse (read : parse (normalize text) = .ok (some version)) :
    version? text = some version := by
  unfold parse at read
  cases found : shape? (normalize text) with
  | none =>
    rw [found] at read
    cases read
  | some shape =>
    rw [found] at read
    obtain ⟨_, came, same⟩ := Result.map_eq_ok.mp read
    obtain rfl := Option.some.inj same
    obtain ⟨major, readMajor, came⟩ := Result.bind_eq_ok.mp came
    obtain ⟨minor, readMinor, came⟩ := Result.bind_eq_ok.mp came
    obtain ⟨patch, readPatch, came⟩ := Result.bind_eq_ok.mp came
    obtain rfl := Except.ok.inj came
    rw [version?, found, Option.map_some, Shape.version, eq_of_readNumber readMajor,
      eq_of_readNumber readMinor, eq_of_readNumber readPatch]

/-- A version that is told to be newer has the higher rank, whether or not both are legible. -/
theorem rank_lt_of_isNewer (semantic : isSemanticLike text = .ok true)
    (semantic' : isSemanticLike text' = .ok true) (newer : isNewer text text' = .ok true) :
    ∃ version version', version? text = some version ∧ version? text' = some version' ∧
      rank version < rank version' := by
  unfold isNewer at newer
  rw [semantic, semantic'] at newer
  have compared : (compare text' text >>= fun order => pure (order == .gt)) = .ok true := newer
  obtain ⟨order, told, above⟩ := Result.bind_eq_ok.mp compared
  obtain rfl := beq_iff_eq.mp (Except.ok.inj above)
  unfold compare at told
  obtain ⟨first?, read, told⟩ := Result.bind_eq_ok.mp told
  obtain ⟨second?, read', told⟩ := Result.bind_eq_ok.mp told
  cases first? with
  | none => cases told
  | some version' =>
    cases second? with
    | none => cases told
    | some version =>
      have is := version?_of_parse read'
      have is' := version?_of_parse read
      exact ⟨version, version', is, is',
        compares_of_compareSemVer (unpadded_of_version? is') (unpadded_of_version? is) told⟩

/-- A candidate is newer: of a higher rank when both are versions, later in the order of texts when
one is not. -/
def Newer (current candidate : List Char) : Prop :=
  match version? current, version? candidate with
  | some version, some version' => rank version < rank version'
  | _, _ => current < candidate

theorem isNewer_eq_ok (legible : Legible text) (legible' : Legible text') :
    ∃ newer, isNewer text text' = .ok newer ∧ (newer = true ↔ Newer text text') := by
  simp only [isNewer, legible.isSemanticLike_eq, legible'.isSemanticLike_eq, Newer]
  cases is : version? text with
  | none => exact ⟨_, rfl, decide_eq_true_iff⟩
  | some version =>
    cases is' : version? text' with
    | none => exact ⟨_, rfl, decide_eq_true_iff⟩
    | some version' =>
      refine ⟨_, ?_, beq_iff_eq.trans (cmp_eq_gt_iff _ _)⟩
      rw [compare_eq_ok legible' legible is' is]
      rfl

theorem isNewer_eq_true_iff (legible : Legible text) (legible' : Legible text') :
    isNewer text text' = .ok true ↔ Newer text text' := by
  obtain ⟨newer, told, exactly⟩ := isNewer_eq_ok legible legible'
  rw [told, Except.ok.injEq, exactly]

theorem isNewer_eq_false_iff (legible : Legible text) (legible' : Legible text') :
    isNewer text text' = .ok false ↔ ¬ Newer text text' := by
  obtain ⟨newer, told, exactly⟩ := isNewer_eq_ok legible legible'
  rw [told, Except.ok.injEq, ← exactly, Bool.not_eq_true]

/-- Two legible texts can be compared. -/
theorem isNewer_of_legible (legible : Legible text) (legible' : Legible text') :
    ∃ newer, isNewer text text' = .ok newer :=
  (isNewer_eq_ok legible legible').imp fun _ => And.left

theorem isNewerTag_text_eq_ok {current candidate : String} {newer : Bool} :
    isNewerTag (.text current) (.text candidate) = .ok newer ↔
      isNewer current.toList candidate.toList = .ok newer :=
  Result.mapError_eq_ok

theorem isNewerTag_of_legible {current candidate : String} (legible : Legible current.toList)
    (legible' : Legible candidate.toList) :
    ∃ newer, isNewerTag (.text current) (.text candidate) = .ok newer :=
  (isNewer_of_legible legible legible').imp fun _ => isNewerTag_text_eq_ok.mpr

section

variable {a b c : List Char} {v w u : SemVer}

theorem compare_eq_iff_swap (legible : Legible a) (legible' : Legible b) (is : version? a = some v)
    (is' : version? b = some w) {order : Ordering} :
    compare a b = .ok order ↔ compare b a = .ok order.swap := by
  rw [compare_eq_ok legible legible' is is', compare_eq_ok legible' legible is' is, Except.ok.injEq,
    Except.ok.injEq, ← cmp_swap (rank v), Ordering.swap_inj]

/-- Only versions of the same numbers and the same pre-release compare equal. -/
theorem compare_eq_eq_iff (legible : Legible a) (legible' : Legible b) (is : version? a = some v)
    (is' : version? b = some w) : compare a b = .ok .eq ↔ v = w := by
  rw [compare_eq_ok legible legible' is is', Except.ok.injEq, cmp_eq_eq_iff]
  exact ⟨eq_of_rank_eq (unpadded_of_version? is) (unpadded_of_version? is'), congrArg rank⟩

/-- What is not above a version that is not above a third is not above the third, and equal to it only
if all three are. -/
theorem compare_trans (legible : Legible a) (legible' : Legible b) (legible'' : Legible c)
    (is : version? a = some v) (is' : version? b = some w) (is'' : version? c = some u)
    {first second : Ordering} (compared : compare a b = .ok first)
    (compared' : compare b c = .ok second) (below : first ≠ .gt) (below' : second ≠ .gt) :
    ∃ third, compare a c = .ok third ∧ third ≠ .gt ∧ (third = .eq → first = .eq ∧ second = .eq) := by
  obtain rfl := Except.ok.inj ((compare_eq_ok legible legible' is is').symm.trans compared)
  obtain rfl := Except.ok.inj ((compare_eq_ok legible' legible'' is' is'').symm.trans compared')
  have up : rank v ≤ rank w := (cmp_compares _ _).ne_gt.mp below
  have up' : rank w ≤ rank u := (cmp_compares _ _).ne_gt.mp below'
  refine ⟨_, compare_eq_ok legible legible'' is is'', (cmp_compares _ _).ne_gt.mpr (up.trans up'), ?_⟩
  intro level
  have same : rank v = rank u := cmp_eq_eq_iff _ _ |>.mp level
  exact ⟨(cmp_eq_eq_iff _ _).mpr (up.antisymm (same ▸ up')),
    (cmp_eq_eq_iff _ _).mpr (up'.antisymm (same ▸ up))⟩

theorem isNewer_iff_compare (legible : Legible a) (legible' : Legible b) (is : version? a = some v)
    (is' : version? b = some w) :
    ∃ newer, isNewer a b = .ok newer ∧ (newer = true ↔ compare b a = .ok .gt) := by
  obtain ⟨newer, told, exactly⟩ := isNewer_eq_ok legible legible'
  refine ⟨newer, told, exactly.trans ?_⟩
  rw [compare_eq_ok legible' legible is' is, Except.ok.injEq, cmp_eq_gt_iff, Newer, is, is']

/-- Versions that are equal to a third are not newer than each other. -/
theorem isNewer_of_compare_eq (legible : Legible a) (legible' : Legible b) (legible'' : Legible c)
    (is : version? a = some v) (is' : version? b = some w) (is'' : version? c = some u)
    (level : compare a c = .ok .eq) (level' : compare b c = .ok .eq) : isNewer a b = .ok false := by
  obtain rfl := (compare_eq_eq_iff legible legible'' is is'').mp level
  obtain rfl := (compare_eq_eq_iff legible' legible'' is' is'').mp level'
  rw [isNewer_eq_false_iff legible legible', Newer, is, is']
  exact lt_irrefl (rank w)

/-- A comparison of legible texts fails for the first that is no version, and for nothing else. -/
theorem compare_eq_error_iff (legible : Legible a) (legible' : Legible b) {fault : Fault} :
    compare a b = .error fault ↔
      (version? a = none ∧ fault = .notSemantic (String.ofList a)) ∨
      (version? a ≠ none ∧ version? b = none ∧ fault = .notSemantic (String.ofList b)) := by
  cases is : version? a with
  | none =>
    have failed : compare a b = .error (.notSemantic (String.ofList a)) := by
      rw [compare, legible.parse_eq, legible'.parse_eq, is]
      rfl
    simp [failed, eq_comm]
  | some v =>
    cases is' : version? b with
    | none =>
      have failed : compare a b = .error (.notSemantic (String.ofList b)) := by
        rw [compare, legible.parse_eq, legible'.parse_eq, is, is']
        rfl
      simp [failed, eq_comm]
    | some w =>
      rw [compare_eq_ok legible legible' is is']
      constructor
      · rintro ⟨⟩
      · rintro (⟨⟨⟩, _⟩ | ⟨_, ⟨⟩, _⟩)

end

/-- The precedence of versions is that of their ranks. Of legible texts, those that have a spelling are
versions. Comparing two of them compares the ranks of what they mean: the other way round it gives the
opposite, it is transitive, it gives equality only for the same numbers and pre-release, and it tells
which one is newer. It fails for a text that is no version, and for nothing else. -/
theorem compare_is_precedence (a b c : List Char) (legible : Legible a) (legible' : Legible b)
    (legible'' : Legible c) :
    (isSemanticLike a = .ok true ↔ ∃ spelling : Spelling, spelling.Spells a) ∧
    (∀ first second : Spelling, first.Spells a → second.Spells b →
      compare a b = .ok (cmp (rank first.version) (rank second.version)) ∧
      (∀ order, compare a b = .ok order ↔ compare b a = .ok order.swap) ∧
      (compare a b = .ok .eq ↔
        (first.version.major = second.version.major ∧ first.version.minor = second.version.minor ∧
          first.version.patch = second.version.patch) ∧
        first.version.prerelease = second.version.prerelease) ∧
      (∃ newer, isNewer a b = .ok newer ∧ (newer = true ↔ compare b a = .ok .gt)) ∧
      ∀ third : Spelling, third.Spells c → ∀ order order', compare a b = .ok order →
        compare b c = .ok order' → order ≠ .gt → order' ≠ .gt →
        ∃ order'', compare a c = .ok order'' ∧ order'' ≠ .gt ∧
          (order'' = .eq → order = .eq ∧ order' = .eq)) ∧
    ∀ fault, compare a b = .error fault ↔
      (isSemanticLike a = .ok false ∧ fault = .notSemantic (String.ofList a)) ∨
      (isSemanticLike a = .ok true ∧ isSemanticLike b = .ok false ∧
        fault = .notSemantic (String.ofList b)) := by
  have version {text : List Char} {spelling : Spelling} (spells : spelling.Spells text) :
      version? text = some spelling.version := version?_eq_some_iff.mpr ⟨spelling, spells, rfl⟩
  refine ⟨?_, fun first second spells spells' => ⟨?_, ?_, ?_, ?_, ?_⟩, fun fault => ?_⟩
  · rw [legible.isSemanticLike_eq, Except.ok.injEq, Option.isSome_iff_exists]
    constructor
    · rintro ⟨_, is⟩
      obtain ⟨spelling, spells, _⟩ := version?_eq_some_iff.mp is
      exact ⟨spelling, spells⟩
    · rintro ⟨spelling, spells⟩
      exact ⟨_, version spells⟩
  · exact compare_eq_ok legible legible' (version spells) (version spells')
  · exact fun order => compare_eq_iff_swap legible legible' (version spells) (version spells')
  · rw [compare_eq_eq_iff legible legible' (version spells) (version spells'), SemVer.mk.injEq]
    tauto
  · exact isNewer_iff_compare legible legible' (version spells) (version spells')
  · intro third spells'' order order' compared compared'
    exact compare_trans legible legible' legible'' (version spells) (version spells')
      (version spells'') compared compared'
  · rw [compare_eq_error_iff legible legible', legible.isSemanticLike_eq, legible'.isSemanticLike_eq]
    simp [Option.isSome_iff_ne_none]

/-- A pre-release is below its release, which is then newer. -/
theorem compare_is_precedence_sample :
    Legible "v1.2.3-rc.1".toList ∧ Legible "1.2.3+build".toList ∧ Legible "v1.3".toList ∧
      isNewer "v1.2.3-rc.1".toList "1.2.3+build".toList = .ok true := by
  have legible : Legible "v1.2.3-rc.1".toList := by decide
  have legible' : Legible "1.2.3+build".toList := by decide
  have legible'' : Legible "v1.3".toList := by decide
  obtain ⟨spelled, compared, _⟩ := compare_is_precedence _ _ _ legible legible' legible''
  obtain ⟨first, spells⟩ := spelled.mp (by decide)
  obtain ⟨second, spells'⟩ := (compare_is_precedence _ _ _ legible' legible legible'').1.mp (by decide)
  obtain ⟨_, _, _, ⟨newer, told, exactly⟩, _⟩ := compared first second spells spells'
  have above : newer = true := exactly.mpr (by decide)
  exact ⟨legible, legible', legible'', above ▸ told⟩

end InfraPins.Version
