import InfraPins.Proofs.Version.Characters
import InfraPins.Proofs.Version.Precedence
import InfraPins.Report

/-! The kind of an upgrade. A bump is told by the first number in which two versions differ, without a
look at which of them is higher. Where one is newer than the other, precedence makes that number grow, so
that a listing shows each upgrade under the name of what grew. -/

namespace InfraPins

namespace Version

variable {current latest : List Char} {version version' : SemVer} {bump : Bump}

/-- The first number in which two versions differ; those that differ in neither of the first two come
under the patch. -/
def bumpOf (version version' : SemVer) : Bump :=
  if version.major ≠ version'.major then .major
  else if version.minor ≠ version'.minor then .minor
  else .patch

/-- What grows from a version to a higher one, after what stays the same. -/
def Grows (version version' : SemVer) : Bump → Prop
  | .major => version.major < version'.major
  | .minor => version.major = version'.major ∧ version.minor < version'.minor
  | .patch => version.major = version'.major ∧ version.minor = version'.minor ∧
      (version.patch < version'.patch ∨ version.patch = version'.patch ∧
        prereleaseRank version.prerelease < prereleaseRank version'.prerelease)

/-- Bumps are told apart by their names. -/
theorem Bump.name_eq_name_iff (bump bump' : Bump) : bump.name = bump'.name ↔ bump = bump' := by
  cases bump <;> cases bump' <;> decide

theorem Bump.name_ne_empty (bump : Bump) : bump.name ≠ "" := by
  cases bump <;> decide

/-- A text that passes for a version is read as one. -/
theorem exists_parse_of_isSemanticLike (like : isSemanticLike current = .ok true) :
    ∃ version, parse (normalize current) = .ok (some version) := by
  obtain ⟨found, read, some⟩ := Result.map_eq_ok.mp like
  obtain ⟨version, rfl⟩ := Option.isSome_iff_exists.mp some
  exact ⟨version, read⟩

theorem bump?_eq_ok (read : parse (normalize current) = .ok (some version))
    (read' : parse (normalize latest) = .ok (some version')) :
    bump? current latest = .ok (some (bumpOf version version')) := by
  rw [bump?, read, read']
  show (if version.major ≠ version'.major then Except.ok (some Bump.major)
    else if version.minor ≠ version'.minor then .ok (some .minor)
    else .ok (some .patch) : Except Fault (Option Bump)) = _
  unfold bumpOf
  split
  · rfl
  · split
    · rfl
    · rfl

/-- A version is below another if something grows. -/
theorem exists_grows (rises : rank version < rank version') :
    ∃ bump, Grows version version' bump := by
  rcases Prod.Lex.toLex_lt_toLex.mp rises with major | ⟨major, rest⟩
  · exact ⟨.major, major⟩
  · rcases Prod.Lex.toLex_lt_toLex.mp rest with minor | ⟨minor, rest⟩
    · exact ⟨.minor, major, minor⟩
    · exact ⟨.patch, major, minor, Prod.Lex.toLex_lt_toLex.mp rest⟩

theorem bumpOf_eq_of_grows (grows : Grows version version' bump) : bumpOf version version' = bump := by
  cases bump with
  | major => exact if_pos grows.ne
  | minor => rw [bumpOf, if_neg (not_not.mpr grows.1), if_pos grows.2.ne]
  | patch => rw [bumpOf, if_neg (not_not.mpr grows.1), if_neg (not_not.mpr grows.2.1)]

/-- Between a version and a higher one, the bump tells what grows. -/
theorem bumpOf_eq_iff (rises : rank version < rank version') :
    bumpOf version version' = bump ↔ Grows version version' bump := by
  obtain ⟨grown, grows⟩ := exists_grows rises
  constructor
  · intro same
    rw [← same, bumpOf_eq_of_grows grows]
    exact grows
  · exact bumpOf_eq_of_grows

theorem bumpOf_eq_patch_iff : bumpOf version version' = .patch ↔
    version.major = version'.major ∧ version.minor = version'.minor := by
  unfold bumpOf
  by_cases major : version.major = version'.major
  · by_cases minor : version.minor = version'.minor
    · simp [major, minor]
    · simp [major, minor]
  · simp [major]

end Version

namespace Run

open Version

variable {current latest : String} {version version' : SemVer} {kind : String}

theorem bumpName_eq_ok (read : parse (normalize current.toList) = .ok (some version))
    (read' : parse (normalize latest.toList) = .ok (some version')) :
    bumpName current (.text latest) = .ok (bumpOf version version').name := by
  simp only [bumpName, Datum.plain, Failure.ofVersion, bump?_eq_ok read read', Except.mapError]
  rfl

/-- No version is newer than itself. -/
theorem ne_of_isNewer (like : isSemanticLike current.toList = .ok true)
    (newer : isNewer current.toList latest.toList = .ok true) : latest ≠ current := by
  rintro rfl
  obtain ⟨version, version', is, is', rises⟩ := rank_lt_of_isNewer like like newer
  obtain rfl := Option.some.inj (is.symm.trans is')
  exact lt_irrefl _ rises

theorem needsUpgrade_of_isNewer (like : isSemanticLike current.toList = .ok true)
    (like' : isSemanticLike latest.toList = .ok true)
    (newer : isNewer current.toList latest.toList = .ok true) :
    needsUpgrade current (.text latest) = .ok true := by
  have filled : latest ≠ "" := by
    intro empty
    exact ne_nil_of_isSemanticLike like' (by rw [empty]; rfl)
  have truthy : (Datum.text latest).isTruthy = true := by simpa [Datum.isTruthy] using filled
  have different : Datum.text latest ≠ .text current := by
    intro same
    exact ne_of_isNewer like newer (Datum.text.inj same)
  simp only [needsUpgrade, truthy, different, isNewerTag_text_eq_ok.mpr newer]
  rfl

/-- A dependency whose newest tag is newer is shown as outdated, with the name of the bump. -/
theorem status_of_isNewer {dependency : Dependency} {tags : List Datum} (repository : Repository)
    (first : tags.head? = some (.text latest))
    (needed : needsUpgrade dependency.current (.text latest) = .ok true)
    (named : bumpName dependency.current (.text latest) = .ok kind) :
    ∃ shown, status repository dependency tags = .ok shown ∧ shown.needsUpgrade = true ∧
      shown.bump = kind := by
  simp only [status, first, Option.getD_some, needed, named]
  exact ⟨_, rfl, rfl, rfl⟩

/-- Where a version is newer than the current one, the kind of the upgrade has a name: it is major if the
first number grows, minor if that stays and the second grows, and a patch if both stay; then the third
number grows, or that stays too and only the pre-release grows. A dependency whose newest tag is that
version is shown as such an update. -/
theorem upgrades_are_named (current latest : String)
    (like : isSemanticLike current.toList = .ok true)
    (like' : isSemanticLike latest.toList = .ok true)
    (newer : isNewer current.toList latest.toList = .ok true) :
    ∃ version version' kind,
      parse (normalize current.toList) = .ok (some version) ∧
      parse (normalize latest.toList) = .ok (some version') ∧
      bumpName current (.text latest) = .ok kind ∧ kind ≠ "" ∧
      (kind = "major" ↔ version.major < version'.major) ∧
      (kind = "minor" ↔ version.major = version'.major ∧ version.minor < version'.minor) ∧
      (kind = "patch" ↔ version.major = version'.major ∧ version.minor = version'.minor) ∧
      (kind = "patch" → version.patch < version'.patch ∨ version.patch = version'.patch ∧
        prereleaseRank version.prerelease < prereleaseRank version'.prerelease) ∧
      ∀ repository dependency tags, dependency.current = current →
        tags.head? = some (.text latest) →
        ∃ shown, status repository dependency tags = .ok shown ∧ shown.needsUpgrade = true ∧
          shown.bump = kind ∧ Report.stateText shown = kind ++ " update" := by
  obtain ⟨version, read⟩ := exists_parse_of_isSemanticLike like
  obtain ⟨version', read'⟩ := exists_parse_of_isSemanticLike like'
  have rises : rank version < rank version' := by
    obtain ⟨_, _, is, is', rises⟩ := rank_lt_of_isNewer like like' newer
    obtain rfl := Option.some.inj ((version?_of_parse read).symm.trans is)
    obtain rfl := Option.some.inj ((version?_of_parse read').symm.trans is')
    exact rises
  have named := bumpName_eq_ok read read'
  have filled := Bump.name_ne_empty (bumpOf version version')
  refine ⟨version, version', _, read, read', named, filled, ?_, ?_, ?_, ?_, ?_⟩
  · exact (Bump.name_eq_name_iff _ .major).trans (bumpOf_eq_iff rises)
  · exact (Bump.name_eq_name_iff _ .minor).trans (bumpOf_eq_iff rises)
  · exact (Bump.name_eq_name_iff _ .patch).trans bumpOf_eq_patch_iff
  · intro patch
    exact ((bumpOf_eq_iff rises).mp ((Bump.name_eq_name_iff _ .patch).mp patch)).2.2
  · rintro repository dependency tags rfl first
    have needed := needsUpgrade_of_isNewer like like' newer
    obtain ⟨shown, told, outdated, same⟩ := status_of_isNewer repository first needed named
    refine ⟨shown, told, outdated, same, ?_⟩
    simp [Report.stateText, outdated, same, filled]

/-- A shorthand and a version that differ in the pre-release alone. -/
theorem upgrades_are_named_sample :
    isSemanticLike "v1.2.0-rc.1".toList = .ok true ∧ isSemanticLike "1.2".toList = .ok true ∧
      isNewer "v1.2.0-rc.1".toList "1.2".toList = .ok true ∧
      bumpName "v1.2.0-rc.1" (.text "1.2") = .ok "patch" := by
  have like : isSemanticLike "v1.2.0-rc.1".toList = .ok true := by decide
  have like' : isSemanticLike "1.2".toList = .ok true := by decide
  have newer : isNewer "v1.2.0-rc.1".toList "1.2".toList = .ok true := by decide
  refine ⟨like, like', newer, ?_⟩
  obtain ⟨version, version', kind, read, read', named, _, _, _, patch, _⟩ :=
    upgrades_are_named _ _ like like' newer
  have is : parse (normalize "v1.2.0-rc.1".toList) =
      .ok (some ⟨1, 2, 0, ["rc".toList, "1".toList]⟩) := by decide
  have is' : parse (normalize "1.2".toList) = .ok (some ⟨1, 2, 0, []⟩) := by decide
  obtain rfl := Option.some.inj (Except.ok.inj (read.symm.trans is))
  obtain rfl := Option.some.inj (Except.ok.inj (read'.symm.trans is'))
  rw [named, patch.mpr ⟨rfl, rfl⟩]

end Run

end InfraPins
