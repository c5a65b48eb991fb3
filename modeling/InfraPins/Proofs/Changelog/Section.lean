import InfraPins.Changelog
import InfraPins.Proofs.Search
import InfraPins.Proofs.Text.Lines
import Mathlib.Data.List.TakeWhile

/-! The place of new entries. The lines of a changelog are cut where its first unreleased section starts
and where it ends. Entries go into the section as one block, behind the bullets of its changes or, if it
has no changes, behind its heading, and every line stays as it is. -/

namespace InfraPins.Changelog

open Text

variable {content : List Char} {lines entries front body rest above run others before lead after :
  List Line} {line heading changed : Line}

/-- The line end of a changelog: `\r\n` when it has any, and `\n` otherwise. -/
def lineEnd (content : List Char) : List Char :=
  if occurs crlf content then crlf else ['\n']

def linesOf (content : List Char) : List Line :=
  if occurs crlf content then splitAtCrlf content else splitAt '\n' content

theorem linesOf_ne_nil (content : List Char) : linesOf content ≠ [] := by
  unfold linesOf
  split
  · exact splitAtCrlf_ne_nil content
  · exact splitAt_ne_nil content

theorem join_linesOf (content : List Char) : join (lineEnd content) (linesOf content) = content := by
  unfold lineEnd linesOf
  split
  · exact join_splitAtCrlf content
  · exact join_splitAt content

theorem free_of_mem_linesOf (member : line ∈ linesOf content) : ¬ lineEnd content <:+: line := by
  unfold linesOf at member
  by_cases windows : occurs crlf content = true
  · rw [if_pos windows] at member
    rw [lineEnd, if_pos windows]
    exact free_of_mem_splitAtCrlf member
  · rw [if_neg windows] at member
    rw [lineEnd, if_neg windows]
    intro inside
    exact (mem_of_mem_splitAt member (inside.subset List.mem_cons_self)).2 rfl

/-- A run of bullets, and what follows it: the run has no other lines than bullets and blank ones and
does not end with a blank one, and what follows does not go on with a bullet. -/
structure Bullets (run others : List Line) : Prop where
  kept : ∀ line ∈ run, isBlankLine line = true ∨ isBullet line = true
  last : ∀ line, run.getLast? = some line → isBullet line = true
  stop : ∀ line, others.find? (!isBlankLine ·) = some line → isBullet line = false

theorem not_isBlankLine_of_isBullet (bullet : isBullet line = true) : isBlankLine line = false := by
  by_contra blank
  have empty : trim line = [] := by simpa [isBlankLine] using blank
  rw [isBullet, empty] at bullet
  exact absurd bullet (by decide)

/-- Lines that do not stop a run are counted whole when a bullet comes after them. -/
theorem bulletRun_append (kept : ∀ line ∈ run, isBlankLine line = true ∨ isBullet line = true)
    (more : bulletRun others ≠ 0) : bulletRun (run ++ others) = run.length + bulletRun others := by
  induction run with
  | nil => simp
  | cons line run ih =>
    obtain ⟨here, onward⟩ := List.forall_mem_cons.mp kept
    have counted := ih onward
    by_cases blank : isBlankLine line = true
    · -- A blank line counts only where a bullet is still to come.
      have positive : bulletRun (run ++ others) ≠ 0 := by omega
      obtain ⟨length, same⟩ := Nat.exists_eq_succ_of_ne_zero positive
      simp only [List.cons_append, bulletRun, blank, if_true, same, List.length_cons]
      omega
    · simp only [List.cons_append, bulletRun, blank, here.resolve_left blank, if_true,
        Bool.false_eq_true, if_false, counted, List.length_cons]
      omega

theorem bulletRun_eq_zero (stop : ∀ line, lines.find? (!isBlankLine ·) = some line →
    isBullet line = false) : bulletRun lines = 0 := by
  induction lines with
  | nil => rfl
  | cons line lines ih =>
    by_cases blank : isBlankLine line = true
    · have onward : bulletRun lines = 0 := ih fun other found => stop other (by simpa [blank] using found)
      simp [bulletRun, blank, onward]
    · have other : isBullet line = false := stop line (by simp [blank])
      simp [bulletRun, blank, other]

/-- Of a run of bullets and what follows it, the run is counted. -/
theorem Bullets.bulletRun_eq (bullets : Bullets run others) :
    bulletRun (run ++ others) = run.length := by
  rcases List.eq_nil_or_concat run with rfl | ⟨run, line, rfl⟩
  · exact bulletRun_eq_zero bullets.stop
  · rw [List.concat_eq_append] at bullets ⊢
    have bullet : isBullet line = true := bullets.last line (by simp)
    have one : bulletRun (line :: others) = 1 := by
      simp [bulletRun, bullet, not_isBlankLine_of_isBullet bullet, bulletRun_eq_zero bullets.stop]
    rw [List.append_assoc, List.singleton_append, bulletRun_append _ (by omega), one]
    · simp
    · intro line member
      exact bullets.kept line (List.mem_append_left _ member)

theorem exists_bullets (lines : List Line) :
    ∃ run others, lines = run ++ others ∧ Bullets run others := by
  induction lines with
  | nil => exact ⟨[], [], rfl, nofun, nofun, nofun⟩
  | cons line lines ih =>
    obtain ⟨run, others, rfl, bullets⟩ := ih
    by_cases blank : isBlankLine line = true
    · -- A blank line belongs to a run that goes on behind it, and otherwise to what follows the run.
      cases run with
      | nil => exact ⟨[], line :: others, rfl, nofun, nofun, by simpa [blank] using bullets.stop⟩
      | cons next run =>
        refine ⟨line :: next :: run, others, rfl, ?_, ?_, bullets.stop⟩
        · exact List.forall_mem_cons.mpr ⟨.inl blank, bullets.kept⟩
        · simpa using bullets.last
    · by_cases bullet : isBullet line = true
      · refine ⟨line :: run, others, rfl, ?_, ?_, bullets.stop⟩
        · exact List.forall_mem_cons.mpr ⟨.inr bullet, bullets.kept⟩
        · intro last found
          cases run with
          | nil =>
            obtain rfl : line = last := by simpa using found
            exact bullet
          | cons next run => exact bullets.last last (by simpa using found)
      · refine ⟨[], line :: (run ++ others), rfl, nofun, nofun, ?_⟩
        intro first found
        obtain rfl : line = first := by simpa [blank] using found
        simpa using bullet

/-- The first unreleased section: its heading has no other such heading before it, and its body ends
before the next heading of a section or with the lines. -/
structure Unreleased (front : List Line) (heading : Line) (body rest : List Line) : Prop where
  first : ∀ line ∈ front, isUnreleased line = false
  heads : isUnreleased heading = true
  inside : ∀ line ∈ body, isSection line = false
  ended : ∀ line, rest.head? = some line → isSection line = true

/-- The place of entries in a body, between two parts of it, and what leads to them: behind the bullets
below the first subheading of changes, or at the start with a subheading of their own. -/
inductive Place : (before lead after : List Line) → Prop where
  | below {above run others : List Line} {changed : Line}
      (unchanged : ∀ line ∈ above, isChanged line = false) (heads : isChanged changed = true)
      (bullets : Bullets run others) : Place (above ++ changed :: run) [] others
  | anew {body : List Line} (unchanged : ∀ line ∈ body, isChanged line = false) :
      Place [] [[], changedHeading, []] body

theorem exists_sectionEnd (lines : List Line) :
    ∃ body rest, lines = body ++ rest ∧ (∀ line ∈ body, isSection line = false) ∧
      ∀ line, rest.head? = some line → isSection line = true := by
  refine ⟨lines.takeWhile (!isSection ·), lines.dropWhile (!isSection ·), ?_, ?_, ?_⟩
  · exact List.takeWhile_append_dropWhile.symm
  · intro line member
    simpa using List.mem_takeWhile_imp member
  · intro line begins
    have stopped := List.head?_dropWhile_not (!isSection ·) lines
    rw [begins] at stopped
    simpa using stopped

theorem exists_unreleased (some : ∃ line ∈ lines, isUnreleased line = true) :
    ∃ front heading body rest, lines = front ++ heading :: (body ++ rest) ∧
      Unreleased front heading body rest := by
  obtain ⟨heading, found⟩ := Option.isSome_iff_exists.mp (List.find?_isSome.mpr some)
  obtain ⟨heads, front, onward, rfl, first⟩ := List.find?_eq_some_iff_append.mp found
  obtain ⟨body, rest, rfl, inside, ended⟩ := exists_sectionEnd onward
  exact ⟨front, heading, body, rest, rfl, fun line member => by simpa using first line member, heads,
    inside, ended⟩

theorem exists_place (body : List Line) :
    ∃ before lead after, body = before ++ after ∧ Place before lead after := by
  cases found : body.find? isChanged with
  | none =>
    refine ⟨[], _, body, rfl, .anew fun line member => ?_⟩
    simpa using List.find?_eq_none.mp found line member
  | some changed =>
    obtain ⟨heads, above, below, rfl, unchanged⟩ := List.find?_eq_some_iff_append.mp found
    obtain ⟨run, others, rfl, bullets⟩ := exists_bullets below
    refine ⟨above ++ changed :: run, [], others, by simp, .below (fun line member => ?_) heads bullets⟩
    simpa using unchanged line member

private theorem findIdx?_append_cons {test : Line → Bool} (passed : ∀ line ∈ front, test line = false)
    (holds : test line = true) : (front ++ line :: rest).findIdx? test = some front.length := by
  rw [List.findIdx?_append, List.findIdx?_eq_none_iff.mpr passed, List.findIdx?_cons, holds]
  simp

/-- The lines between two indices, where a list is put together from three. -/
theorem take_drop_middle {start stop : Nat} (split : lines = front ++ (body ++ rest))
    (starts : start = front.length) (stops : stop = start + body.length) :
    (lines.take stop).drop start = body := by
  subst split starts stops
  rw [List.take_length_add_append, List.drop_left, List.take_left]

theorem findLine?_middle {test : Line → Bool} {start stop : Nat}
    (split : lines = front ++ (body ++ rest)) (starts : start = front.length)
    (stops : stop = start + body.length) :
    findLine? test lines start stop = (body.findIdx? test).map (start + ·) := by
  rw [findLine?, take_drop_middle split starts stops]

/-- The index behind the unreleased heading and what follows it, and the bounds of the section. -/
theorem Unreleased.found (unreleased : Unreleased front heading body rest) :
    findUnreleased? (front ++ heading :: (body ++ rest)) = some front.length ∧
    findSectionEnd (front ++ heading :: (body ++ rest)) (front.length + 1) =
      front.length + 1 + body.length := by
  constructor
  · rw [findUnreleased?, findLine?, List.take_length, List.drop_zero,
      findIdx?_append_cons unreleased.first unreleased.heads]
    simp
  · have split : front ++ heading :: (body ++ rest) = (front ++ [heading]) ++ ((body ++ rest) ++ []) := by
      simp
    rw [findSectionEnd, findLine?_middle split (by simp) (by simp [Nat.add_assoc, Nat.add_comm 1])]
    cases rest with
    | nil =>
      rw [List.append_nil, List.findIdx?_eq_none_iff.mpr unreleased.inside]
      simp [Nat.add_assoc, Nat.add_comm 1]
    | cons next rest =>
      rw [findIdx?_append_cons unreleased.inside (unreleased.ended next rfl)]
      rfl

theorem insertAt_eq {index : Nat} (split : lines = front ++ rest) (here : index = front.length) :
    insertAt lines index entries = front ++ entries ++ rest := by
  subst split here
  rw [insertAt, List.take_left, List.drop_left]

theorem insertLines?_eq (unreleased : Unreleased front heading (before ++ after) rest)
    (place : Place before lead after) :
    insertLines? (front ++ heading :: (before ++ after ++ rest)) entries =
      some (insertAt (front ++ heading :: (before ++ after ++ rest))
        (front.length + 1 + before.length) (lead ++ entries)) := by
  obtain ⟨found, ended⟩ := unreleased.found
  rw [insertLines?, found, Option.map_some, ended]
  dsimp only
  have inner : front ++ heading :: (before ++ after ++ rest) =
      (front ++ [heading]) ++ ((before ++ after) ++ rest) := by simp
  cases place with
  | below unchanged heads bullets =>
    rename_i above run changed
    have behind : front ++ heading :: (above ++ changed :: run ++ after ++ rest) =
        (front ++ heading :: (above ++ [changed])) ++ ((run ++ after) ++ rest) := by simp
    have subheading : (above ++ changed :: run ++ after).findIdx? isChanged = some above.length := by
      rw [List.append_assoc, List.cons_append, findIdx?_append_cons unchanged heads]
    rw [findChanged?, findLine?_middle inner (by simp) rfl, subheading]
    dsimp only [Option.map_some]
    rw [afterBullets, take_drop_middle behind (by simp; omega) (by simp; omega), bullets.bulletRun_eq]
    have index : front.length + 1 + above.length + 1 + run.length =
        front.length + 1 + (above ++ changed :: run).length := by simp; omega
    rw [index, List.nil_append]
  | anew unchanged =>
    rw [findChanged?, findLine?_middle inner (by simp) rfl, List.nil_append,
      List.findIdx?_eq_none_iff.mpr unchanged]
    rfl

/-- With an unreleased section, the text is cut between two of its lines and the entries, with what leads
to them, are put in. -/
theorem insertEntries_eq (nonempty : entries ≠ [])
    (split : linesOf content = front ++ heading :: (before ++ after ++ rest))
    (unreleased : Unreleased front heading (before ++ after) rest) (place : Place before lead after) :
    insertEntries content entries = join (lineEnd content)
      (insertAt (linesOf content) (front.length + 1 + before.length) (lead ++ entries)) := by
  have cut : insertLines? (linesOf content) entries = some (insertAt (linesOf content)
      (front.length + 1 + before.length) (lead ++ entries)) := by
    rw [split, insertLines?_eq unreleased place]
  have opened : entries.isEmpty = false := by simpa using nonempty
  rw [insertEntries, opened]
  unfold linesOf at cut ⊢
  simp only [Bool.false_eq_true, if_false, cut]
  rfl

/-- Such a text, put together from all of its lines. -/
theorem insertEntries_eq_join (nonempty : entries ≠ [])
    (split : linesOf content = front ++ heading :: (before ++ after ++ rest))
    (unreleased : Unreleased front heading (before ++ after) rest) (place : Place before lead after) :
    insertEntries content entries = join (lineEnd content)
      ((front ++ heading :: before) ++ (lead ++ entries) ++ (after ++ rest)) := by
  have cut : linesOf content = (front ++ heading :: before) ++ (after ++ rest) := by simp [split]
  rw [insertEntries_eq nonempty split unreleased place, insertAt_eq cut (by simp; omega)]

theorem insertEntries_of_released (released : ∀ line ∈ linesOf content, isUnreleased line = false)
    (entries : List Line) : insertEntries content entries = content := by
  have none : insertLines? (linesOf content) entries = none := by
    rw [insertLines?, findUnreleased?, findLine?, List.take_length, List.drop_zero,
      List.findIdx?_eq_none_iff.mpr released]
    rfl
  unfold linesOf at none
  unfold insertEntries
  split
  · rfl
  · simp only [none]

/-- Entries are put in as one block. The lines of a changelog, cut at its line end, have none in them and
make it up. Where none of them heads an unreleased section, the changelog stays as it is. Otherwise it
is, with the same line end, its lines with one block put in, before an index that is behind the first
such heading and not behind the next heading of a section: the entries below the bullets of the first
subheading of changes in between, or that subheading anew with the entries. -/
theorem insertEntries_puts_block (content : List Char) (entries : List Line) (nonempty : entries ≠ []) :
    join (lineEnd content) (linesOf content) = content ∧
    (∀ line ∈ linesOf content, ¬ lineEnd content <:+: line) ∧
    ((∀ line ∈ linesOf content, isUnreleased line = false) →
      insertEntries content entries = content) ∧
    ((∃ line ∈ linesOf content, isUnreleased line = true) → ∃ front heading before lead after rest,
      linesOf content = front ++ heading :: (before ++ after ++ rest) ∧
      Unreleased front heading (before ++ after) rest ∧ Place before lead after ∧
      insertEntries content entries = join (lineEnd content)
        (insertAt (linesOf content) (front.length + 1 + before.length) (lead ++ entries))) := by
  refine ⟨join_linesOf content, fun _ => free_of_mem_linesOf,
    fun released => insertEntries_of_released released entries, fun headed => ?_⟩
  obtain ⟨front, heading, body, rest, split, unreleased⟩ := exists_unreleased headed
  obtain ⟨before, lead, after, rfl, place⟩ := exists_place body
  exact ⟨front, heading, before, lead, after, rest, split, unreleased, place,
    insertEntries_eq nonempty split unreleased place⟩

/-- A changelog with one change that is not released. -/
def shortChangelog : List Char :=
  "## [Unreleased]\n\n### Changed\n\n- a\n\n## [1.0.0]\n".toList

theorem insertEntries_puts_block_sample :
    ∃ front heading before lead after rest,
      linesOf shortChangelog = front ++ heading :: (before ++ after ++ rest) ∧
      Unreleased front heading (before ++ after) rest ∧ Place before lead after ∧
      insertEntries shortChangelog ["- b".toList] = join (lineEnd shortChangelog)
        (insertAt (linesOf shortChangelog) (front.length + 1 + before.length)
          (lead ++ ["- b".toList])) :=
  (insertEntries_puts_block shortChangelog ["- b".toList] (by simp)).2.2.2
    ⟨"## [Unreleased]".toList, by decide +kernel, by decide +kernel⟩

end InfraPins.Changelog
