import InfraPins.Proofs.Ends
import InfraPins.Version.Precedence

namespace InfraPins

/-- A fault over a number that is too long to be read. -/
def Version.Fault.IsLong (fault : Version.Fault) : Prop :=
  ∃ count, fault = .tooManyDigits count ∧ Text.maxDigits < count

/-- A failure over a number that is too long to be read. -/
def Failure.IsLong (cause : Failure) : Prop :=
  ∃ count, cause = .version (.tooManyDigits count) ∧ Text.maxDigits < count

theorem Failure.isLong_version {fault : Version.Fault} (long : fault.IsLong) :
    (Failure.version fault).IsLong := by
  obtain ⟨count, rfl, more⟩ := long
  exact ⟨count, rfl, more⟩

namespace Version

open Result

theorem readNumber_ends (digits : List Char) :
    Ends Fault.IsLong (readNumber digits) fun _ => True := by
  unfold readNumber
  split
  · rename_i more
    exact .error ⟨_, rfl, more⟩
  · exact .ok trivial

theorem parse_ends (text : List Char) : Ends Fault.IsLong (parse text) fun _ => True := by
  unfold parse
  split
  · refine .map ?_
    exact (readNumber_ends _).bind fun _ _ => (readNumber_ends _).bind fun _ _ =>
      (readNumber_ends _).bind fun _ _ => .ok trivial
  · exact .ok trivial

theorem isSemanticLike_ends (text : List Char) :
    Ends Fault.IsLong (isSemanticLike text) fun like =>
      like = true → ∃ version, parse (normalize text) = .ok (some version) := by
  have read := parse_ends (normalize text)
  unfold isSemanticLike isSemantic
  cases parsed : parse (normalize text) with
  | error fault => exact .error (read.fails fault parsed)
  | ok found =>
    refine .ok fun like => ?_
    obtain ⟨version, rfl⟩ := Option.isSome_iff_exists.mp like
    exact ⟨version, rfl⟩

theorem compareIdentifier_ends (left right : List Char) :
    Ends Fault.IsLong (compareIdentifier left right) fun _ => True := by
  unfold compareIdentifier
  split
  · exact (readNumber_ends _).bind fun _ _ => (readNumber_ends _).bind fun _ _ => .ok trivial
  · exact .ok trivial
  · exact .ok trivial
  · exact .ok trivial

theorem compareIdentifiers_ends (left right : List (List Char)) :
    Ends Fault.IsLong (compareIdentifiers left right) fun _ => True := by
  induction left generalizing right with
  | nil => cases right <;> exact .ok trivial
  | cons first rest ih =>
    cases right with
    | nil => exact .ok trivial
    | cons other others =>
      unfold compareIdentifiers
      split
      · exact ih others
      · exact compareIdentifier_ends first other

theorem compareSemVer_ends (left right : SemVer) :
    Ends Fault.IsLong (compareSemVer left right) fun _ => True := by
  unfold compareSemVer
  split
  · unfold comparePrerelease
    split
    · exact .ok trivial
    · exact .ok trivial
    · exact .ok trivial
    · exact compareIdentifiers_ends _ _
  · exact .ok trivial

/-- Two texts are told apart unless a number in one of them is too long. -/
theorem isNewer_ends (current candidate : List Char) :
    Ends Fault.IsLong (isNewer current candidate) fun _ => True := by
  refine (isSemanticLike_ends current).bind fun like read => ?_
  split
  · rename_i isLike
    obtain ⟨version, parsed⟩ := read isLike
    refine (isSemanticLike_ends candidate).bind fun like' read' => ?_
    split
    · rename_i isLike'
      obtain ⟨version', parsed'⟩ := read' isLike'
      have compared : Ends Fault.IsLong (compare candidate current) fun _ => True := by
        rw [compare, parsed, parsed']
        exact compareSemVer_ends version' version
      exact compared.bind fun _ _ => .ok trivial
    · exact .ok trivial
  · exact .ok trivial

theorem bump?_ends (current latest : List Char) :
    Ends Fault.IsLong (bump? current latest) fun _ => True := by
  refine (parse_ends _).bind fun first _ => (parse_ends _).bind fun second _ => ?_
  split
  · split
    · exact .ok trivial
    · split
      · exact .ok trivial
      · exact .ok trivial
  · exact .ok trivial

/-- Texts among tags are told apart unless a number in one of them is too long. -/
theorem isNewerTag_text_ends (current candidate : String) :
    Ends Failure.IsLong (isNewerTag (.text current) (.text candidate)) fun _ => True :=
  .mapError ((isNewer_ends _ _).mono fun _ => Failure.isLong_version)

theorem isNewerTag_ends (current candidate : Datum) :
    Ends (fun cause => cause.IsLong ∨ ∃ misuse, cause = .misuse misuse)
      (isNewerTag current candidate) fun _ => True := by
  unfold isNewerTag
  split
  · exact (isNewerTag_text_ends _ _).mono fun _ => .inl
  · refine Ends.bind (.mapError ((isSemanticLike_ends _).mono fun fault long => ?_)) fun like _ => ?_
    · exact .inl (Failure.isLong_version long)
    split
    · exact .error (.inr ⟨_, rfl⟩)
    · exact .error (.inr ⟨_, rfl⟩)
  · exact .error (.inr ⟨_, rfl⟩)

theorem sortTags_ends (tags : List Datum) :
    Ends (fun cause => cause.IsLong ∨ ∃ misuse, cause = .misuse misuse) (sortTags tags)
      fun _ => True := by
  refine Sorting.descending_goes Ends.rules (fun left right => ?_) tags
  refine (isNewerTag_ends right left).bind fun newer _ => ?_
  split
  · exact .ok trivial
  · exact isNewerTag_ends left right

end Version

end InfraPins
