import InfraPins.Proofs.Changelog.Section

/-! Entries upon entries. Bullets that were put into a changelog are found again where they were put, so
that more bullets follow them: two lists of bullets put in one after the other make the changelog that
both make together. -/

namespace InfraPins.Changelog

open Text

variable {content : List Char} {lines entries more front body rest run others before lead after :
  List Line} {line heading : Line}

structure IsEntry (line : Line) : Prop where
  bullet : isBullet line = true
  unbroken : '\r' ∉ line ∧ '\n' ∉ line

theorem head_of_isBullet (bullet : isBullet line = true) :
    (trim line).head? = some '-' ∨ (trim line).head? = some '*' := by
  obtain ⟨opening, member, begins⟩ := List.any_eq_true.mp bullet
  obtain ⟨rest, split⟩ := List.isPrefixOf_iff_prefix.mp begins
  rcases List.mem_cons.mp member with rfl | member
  · exact .inl (split ▸ rfl)
  · obtain rfl := List.mem_singleton.mp member
    exact .inr (split ▸ rfl)

theorem not_isSection_of_isBullet (bullet : isBullet line = true) : isSection line = false := by
  refine Bool.eq_false_iff.mpr fun heads => ?_
  obtain ⟨rest, split⟩ := List.isPrefixOf_iff_prefix.mp heads
  have hash : (trim line).head? = some '#' := split ▸ rfl
  rcases head_of_isBullet bullet with dash | star
  · cases hash.symm.trans dash
  · cases hash.symm.trans star

theorem Bullets.append (bullets : Bullets run others) (entries : ∀ line ∈ more, isBullet line = true) :
    Bullets (run ++ more) others where
  kept := by
    intro line member
    rcases List.mem_append.mp member with early | late
    · exact bullets.kept line early
    · exact .inr (entries line late)
  last := by
    intro line found
    rcases List.eq_nil_or_concat more with rfl | ⟨more, last, rfl⟩
    · exact bullets.last line (by simpa using found)
    · obtain rfl : last = line := by simpa using found
      exact entries last (by simp)
  stop := bullets.stop

/-- Behind bullets that were put in their place there is the place of more. -/
theorem Place.onward (place : Place before lead after) (bullets : ∀ line ∈ entries, isBullet line = true)
    (nonempty : entries ≠ [])
    (apart : lead ≠ [] → ∀ line, after.find? (!isBlankLine ·) = some line → isBullet line = false) :
    Place (before ++ (lead ++ entries)) [] after := by
  cases place with
  | below unchanged heads run =>
    have next := Place.below unchanged heads (run.append bullets)
    simpa using next
  | anew unchanged =>
    -- The subheading that was put in is the first of its kind, and the blank line below it opens the run.
    show Place ([[]] ++ changedHeading :: ([] :: entries)) [] after
    refine .below (by decide) (by decide) ⟨?_, ?_, apart (by simp)⟩
    · intro line member
      rcases List.mem_cons.mp member with rfl | member
      · exact .inl rfl
      · exact .inr (bullets line member)
    · intro line found
      obtain ⟨first, entries, rfl⟩ := List.exists_cons_of_ne_nil nonempty
      exact bullets line (List.mem_of_getLast? (by simpa using found))

/-- What leads to the entries heads no section, and stands on lines of its own. -/
theorem Place.lead_plain (place : Place before lead after) :
    ∀ line ∈ lead, isSection line = false ∧ '\r' ∉ line ∧ '\n' ∉ line := by
  cases place with
  | below => nofun
  | anew => decide

/-- With bullets in its body, an unreleased section is where it was. -/
theorem Unreleased.onward (unreleased : Unreleased front heading (before ++ after) rest)
    (place : Place before lead after) (bullets : ∀ line ∈ entries, isBullet line = true) :
    Unreleased front heading (before ++ (lead ++ entries) ++ after) rest where
  first := unreleased.first
  heads := unreleased.heads
  inside := by
    obtain ⟨early, late⟩ := List.forall_mem_append.mp unreleased.inside
    refine List.forall_mem_append.mpr ⟨List.forall_mem_append.mpr ⟨early, ?_⟩, late⟩
    refine List.forall_mem_append.mpr ⟨fun line member => ?_, fun line member => ?_⟩
    · exact (place.lead_plain line member).1
    · exact not_isSection_of_isBullet (bullets line member)
  ended := unreleased.ended

/-- A text in which every `\r` is followed by `\n`. -/
def Paired (content : List Char) : Prop :=
  ∀ front back, content = front ++ '\r' :: back → back.head? = some '\n'

theorem Paired.notMem (paired : Paired content) (unix : ¬ crlf <:+: content) : '\r' ∉ content := by
  intro member
  obtain ⟨front, back, rfl⟩ := List.append_of_mem member
  obtain ⟨rest, rfl⟩ := List.head?_eq_some_iff.mp (paired front back rfl)
  exact unix ⟨front, rest, by simp [crlf]⟩

/-- Lines of a changelog and lines without line ends, put together with its line end, are found again. -/
theorem linesOf_join (paired : Paired content) (several : 1 < lines.length)
    (plain : ∀ line ∈ lines, line ∈ linesOf content ∨ '\r' ∉ line ∧ '\n' ∉ line) :
    lineEnd (join (lineEnd content) lines) = lineEnd content ∧
    linesOf (join (lineEnd content) lines) = lines := by
  have nonempty : lines ≠ [] := by
    rintro rfl
    simp at several
  by_cases windows : occurs crlf content = true
  · have same : lineEnd content = crlf := if_pos windows
    have ended : occurs crlf (join crlf lines) = true := by
      rw [occurs_iff]
      match lines, several with
      | first :: second :: lines, _ => exact ⟨first, join crlf (second :: lines), by simp [join]⟩
    have free : ∀ line ∈ lines, ¬ crlf <:+: line := by
      intro line member inside
      rcases plain line member with old | ⟨unbroken, _⟩
      · exact free_of_mem_linesOf old (same ▸ inside)
      · exact unbroken (inside.subset List.mem_cons_self)
    rw [same]
    exact ⟨if_pos ended, (if_pos ended).trans (splitAtCrlf_join nonempty free)⟩
  · have same : lineEnd content = ['\n'] := if_neg windows
    -- The content has no half of a line end that a `\n` between lines could make whole.
    have bare : '\r' ∉ content := paired.notMem (occurs_iff.not.mp windows)
    have free : ∀ line ∈ lines, '\r' ∉ line ∧ '\n' ∉ line := by
      intro line member
      rcases plain line member with old | unbroken
      · rw [linesOf, if_neg windows] at old
        exact ⟨fun inside => bare (mem_of_mem_splitAt old inside).1,
          fun inside => (mem_of_mem_splitAt old inside).2 rfl⟩
      · exact unbroken
    have unended : ¬ occurs crlf (join ['\n'] lines) = true := by
      rw [occurs_iff]
      intro inside
      rcases mem_join (inside.subset List.mem_cons_self) with slip | ⟨line, member, slip⟩
      · cases slip
      · exact (free line member).1 slip
    rw [same]
    exact ⟨if_neg unended, (if_neg unended).trans
      (splitAt_join nonempty fun line member => (free line member).2)⟩

/-- The line end and the lines of a changelog that entries were put into. -/
theorem linesOf_insertEntries (paired : Paired content)
    (split : linesOf content = front ++ heading :: (before ++ after ++ rest))
    (unreleased : Unreleased front heading (before ++ after) rest) (place : Place before lead after)
    (new : ∀ line ∈ entries, IsEntry line) (nonempty : entries ≠ []) :
    lineEnd (insertEntries content entries) = lineEnd content ∧
    linesOf (insertEntries content entries) =
      front ++ heading :: (before ++ (lead ++ entries) ++ after ++ rest) := by
  have cut : linesOf content = (front ++ heading :: before) ++ (after ++ rest) := by simp [split]
  have plain : ∀ line ∈ (front ++ heading :: before) ++ (lead ++ entries) ++ (after ++ rest),
      line ∈ linesOf content ∨ '\r' ∉ line ∧ '\n' ∉ line := by
    intro line member
    rcases List.mem_append.mp member with early | late
    · rcases List.mem_append.mp early with kept | put
      · exact .inl (cut ▸ List.mem_append_left _ kept)
      · rcases List.mem_append.mp put with led | added
        · exact .inr (place.lead_plain line led).2
        · exact .inr (new line added).unbroken
    · exact .inl (cut ▸ List.mem_append_right _ late)
  have several : 1 < ((front ++ heading :: before) ++ (lead ++ entries) ++ (after ++ rest)).length := by
    have filled : 0 < entries.length := List.length_pos_iff.mpr nonempty
    simp
    omega
  rw [insertEntries_eq_join nonempty split unreleased place]
  obtain ⟨sameEnd, sameLines⟩ := linesOf_join paired several plain
  exact ⟨sameEnd, by rw [sameLines]; simp⟩

/-- A changelog in which new entries do not meet bullets of another kind: its first unreleased section
has a subheading of changes, or the first line after its heading that is not blank is no bullet. -/
def Receptive (content : List Char) : Prop :=
  ∀ front heading body rest, linesOf content = front ++ heading :: (body ++ rest) →
    Unreleased front heading body rest →
    (∃ line ∈ body, isChanged line = true) ∨
      ∀ line, (body ++ rest).find? (!isBlankLine ·) = some line → isBullet line = false

theorem Receptive.apart (receptive : Receptive content)
    (split : linesOf content = front ++ heading :: (before ++ after ++ rest))
    (unreleased : Unreleased front heading (before ++ after) rest) (place : Place before lead after)
    (anew : lead ≠ []) (found : after.find? (!isBlankLine ·) = some line) : isBullet line = false := by
  cases place with
  | below => exact absurd rfl anew
  | anew unchanged =>
    rcases receptive front heading _ rest split unreleased with ⟨changed, member, heads⟩ | stop
    · rw [unchanged changed member] at heads
      cases heads
    · exact stop line (by simp [found])

/-- Insertions accumulate. A changelog without an unreleased section stays as it is, whatever the
entries. To put bullets into another changelog, and more bullets into what comes of it, is to put in
all of them at once. -/
theorem insertEntries_insertEntries (content : List Char) :
    ((∀ line ∈ linesOf content, isUnreleased line = false) →
      ∀ entries, insertEntries content entries = content) ∧
    (Paired content → Receptive content → ∀ entries more : List Line,
      (∀ line ∈ entries ++ more, IsEntry line) →
        insertEntries (insertEntries content entries) more = insertEntries content (entries ++ more)) := by
  refine ⟨fun released => insertEntries_of_released released, ?_⟩
  intro paired receptive entries more all
  by_cases none : entries = []
  · subst none
    rfl
  by_cases enough : more = []
  · subst enough
    rw [List.append_nil]
    rfl
  by_cases headed : ∃ line ∈ linesOf content, isUnreleased line = true
  · obtain ⟨front, heading, body, rest, split, unreleased⟩ := exists_unreleased headed
    obtain ⟨before, lead, after, rfl, place⟩ := exists_place body
    obtain ⟨early, late⟩ := List.forall_mem_append.mp all
    have bullets : ∀ line ∈ entries, isBullet line = true := fun line member => (early line member).bullet
    obtain ⟨sameEnd, sameLines⟩ := linesOf_insertEntries paired split unreleased place early none
    have next := place.onward bullets none fun anew line =>
      receptive.apart split unreleased place anew
    have both : entries ++ more ≠ [] := by simp [none]
    rw [insertEntries_eq_join enough sameLines (unreleased.onward place bullets) next, sameEnd,
      insertEntries_eq_join both split unreleased place]
    simp
  · have released : ∀ line ∈ linesOf content, isUnreleased line = false := by simpa using headed
    rw [insertEntries_of_released released, insertEntries_of_released released,
      insertEntries_of_released released]

theorem insertEntries_insertEntries_sample :
    insertEntries "# Changelog\n".toList ["- b".toList] = "# Changelog\n".toList ∧
    insertEntries (insertEntries shortChangelog ["- b".toList]) ["* c".toList] =
      insertEntries shortChangelog (["- b".toList] ++ ["* c".toList]) := by
  have paired : Paired shortChangelog := by
    intro front back split
    have absent : '\r' ∉ shortChangelog := by decide +kernel
    exact absurd (split ▸ List.mem_append_right _ List.mem_cons_self) absent
  have receptive : Receptive shortChangelog := by
    intro front heading body rest split unreleased
    have lines : linesOf shortChangelog = "## [Unreleased]".toList :: ["", "### Changed", "", "- a", "",
        "## [1.0.0]", ""].map String.toList := by decide +kernel
    rw [lines] at split
    cases front with
    | nil =>
      obtain ⟨_, onward⟩ := List.cons.inj split
      right
      intro line found
      rw [← onward] at found
      obtain rfl : "### Changed".toList = line := Option.some.inj found
      decide +kernel
    | cons first front =>
      obtain ⟨rfl, _⟩ := List.cons.inj split
      exact absurd (unreleased.first _ List.mem_cons_self) (by decide +kernel)
  refine ⟨(insertEntries_insertEntries _).1 (by decide +kernel) _,
    (insertEntries_insertEntries shortChangelog).2 paired receptive _ _ ?_⟩
  intro line member
  simp only [List.cons_append, List.nil_append, List.mem_cons, List.not_mem_nil, or_false] at member
  rcases member with rfl | rfl
  · exact ⟨by decide +kernel, by decide +kernel⟩
  · exact ⟨by decide +kernel, by decide +kernel⟩

end InfraPins.Changelog
