import InfraPins.Proofs.Changelog.Section
import InfraPins.Proofs.Text.Trimmed

/-! Where a reader sees the entries. A reader's rows end at each `\n`, while the lines of a changelog that
has `\r\n` anywhere end there only. Where no heading shares its line with a lone `\n`, entries are put
into the first unreleased section of the rows. -/

namespace InfraPins.Changelog

open Text

variable {content text mark : List Char} {lines entries front body rest before lead after : List Line}
  {line heading row other : Line}

theorem isUnreleased_congr (same : trim line = trim other) : isUnreleased line = isUnreleased other := by
  rw [isUnreleased, same, isUnreleased]

theorem isSection_congr (same : trim line = trim other) : isSection line = isSection other := by
  rw [isSection, same, isSection]

theorem isSection_of_isUnreleased (heads : isUnreleased line = true) : isSection line = true := by
  have known : trim line ∈ unreleasedHeadings := by simpa [isUnreleased] using heads
  have all : ∀ heading ∈ unreleasedHeadings, sectionOpening.isPrefixOf heading = true := by decide
  exact all _ known

/-- A line end is `\n`, and what stands before it is white space. -/
theorem exists_mark (content : List Char) :
    ∃ mark, lineEnd content = mark ++ ['\n'] ∧ '\n' ∉ mark ∧ ∀ c ∈ mark, isBlank c = true := by
  unfold lineEnd
  split
  · refine ⟨['\r'], rfl, by decide, fun c member => ?_⟩
    obtain rfl := List.mem_singleton.mp member
    decide +kernel
  · exact ⟨[], rfl, nofun, nofun⟩

/-- What stands before a line end makes no difference to trimmed rows. -/
theorem trim_rows_append (unbroken : '\n' ∉ mark) (blank : ∀ c ∈ mark, isBlank c = true) :
    (splitAt '\n' (text ++ mark)).map trim = (splitAt '\n' text).map trim := by
  obtain ⟨pieces, last, split, split'⟩ := splitAt_append_free text unbroken
  have same : trim (last ++ mark) = trim last := by
    simpa using @trim_surrounded last [] mark nofun blank
  rw [split, split', List.map_append, List.map_append, List.map_singleton, List.map_singleton, same]

/-- But for white space around them, the rows of a text are those of its lines. -/
theorem trim_rows_join (unbroken : '\n' ∉ mark) (blank : ∀ c ∈ mark, isBlank c = true)
    (nonempty : lines ≠ []) :
    (splitAt '\n' (join (mark ++ ['\n']) lines)).map trim = (lines.flatMap (splitAt '\n')).map trim := by
  induction lines with
  | nil => exact absurd rfl nonempty
  | cons line lines ih =>
    cases lines with
    | nil => simp [join]
    | cons next lines =>
      have cut : join (mark ++ ['\n']) (line :: next :: lines) =
          (line ++ mark) ++ '\n' :: join (mark ++ ['\n']) (next :: lines) := by simp [join]
      rw [cut, splitAt_append, List.map_append, trim_rows_append unbroken blank,
        ih (List.cons_ne_nil next lines), ← List.map_append]
      rfl

theorem exists_row {word lead trail : List Char} (whole : '\n' ∉ word)
    (blank : ∀ c ∈ lead, isBlank c = true) (blank' : ∀ c ∈ trail, isBlank c = true) :
    ∃ row ∈ splitAt '\n' (lead ++ word ++ trail), trim row = trim word := by
  induction lead with
  | nil =>
    by_cases broken : '\n' ∈ trail
    · obtain ⟨here, onward, rfl, unbroken⟩ := List.eq_append_cons_of_mem broken
      refine ⟨word ++ here, ?_, ?_⟩
      · rw [List.nil_append, ← List.append_assoc, splitAt_append,
          splitAt_of_notMem (by simp [whole, unbroken])]
        exact List.mem_cons_self
      · simpa using @trim_surrounded word [] here nofun fun c member =>
          blank' c (List.mem_append_left _ member)
    · refine ⟨word ++ trail, ?_, by simpa using @trim_surrounded word [] trail nofun blank'⟩
      rw [List.nil_append, splitAt_of_notMem (by simp [whole, broken])]
      exact List.mem_singleton_self _
  | cons c lead ih =>
    obtain ⟨white, blank⟩ := List.forall_mem_cons.mp blank
    obtain ⟨row, member, same⟩ := ih blank
    obtain ⟨piece, pieces, split⟩ := List.exists_cons_of_ne_nil
      (splitAt_ne_nil (lead ++ word ++ trail) : splitAt '\n' (lead ++ word ++ trail) ≠ [])
    rw [split] at member
    by_cases cut : c = '\n'
    · have apart : splitAt '\n' (c :: lead ++ word ++ trail) = [] :: piece :: pieces := by
        simp only [List.cons_append, splitAt, split]
        simp [cut]
      rw [apart]
      exact ⟨row, List.mem_cons_of_mem _ member, same⟩
    · have longer : splitAt '\n' (c :: lead ++ word ++ trail) = (c :: piece) :: pieces := by
        simp only [List.cons_append, splitAt, split]
        simp [cut]
      rw [longer]
      rcases List.mem_cons.mp member with rfl | member
      · refine ⟨c :: row, List.mem_cons_self, ?_⟩
        rw [← same]
        simpa using @trim_surrounded row [c] [] (by simpa using white) nofun
      · exact ⟨row, List.mem_cons_of_mem _ member, same⟩

/-- What is left of a line when it is trimmed stands in one of its rows, if it stands in one row. -/
theorem exists_trim_row (whole : '\n' ∉ trim line) :
    ∃ row ∈ splitAt '\n' line, trim row = trim line := by
  obtain ⟨lead, trail, split, blank, blank'⟩ := eq_trim line
  have found := exists_row whole blank blank'
  rwa [← split, trim_trim] at found

/-- A changelog in which no heading of a section shares its line with a lone `\n`. -/
def HeadingsApart (content : List Char) : Prop :=
  ∀ line ∈ linesOf content, '\n' ∈ line → ∀ row ∈ splitAt '\n' line, isSection row = false

/-- Headings are apart in a text with one kind of line end: with no `\r\n`, or with no other `\n`. -/
theorem headingsApart_of_uniform (uniform : ¬ crlf <:+: content ∨
    ∀ front back, content = front ++ '\n' :: back → front.getLast? = some '\r') :
    HeadingsApart content := by
  intro line member broken
  exfalso
  have free := free_of_mem_linesOf member
  obtain ⟨start, onward, rfl⟩ := List.append_of_mem broken
  by_cases windows : crlf <:+: content
  · have same : lineEnd content = crlf := if_pos (occurs_iff.mpr windows)
    rw [same] at free
    have ends := uniform.resolve_left (not_not_intro windows)
    obtain ⟨lines, others, split⟩ := List.append_of_mem member
    have whole := join_linesOf content
    rw [same, split] at whole
    -- A lone `\n` at the start of its line would stand at that of the text or behind a line end.
    have paired : start.getLast? = some '\r' := by
      cases lines with
      | nil =>
        rw [List.nil_append, join_cons] at whole
        exact ends start _ (by rw [← whole, List.append_assoc, List.cons_append])
      | cons first lines =>
        rw [join_append (List.cons_ne_nil first lines), List.flatMap_cons] at whole
        have last := ends (join crlf (first :: lines) ++ crlf ++ start)
          (onward ++ others.flatMap (crlf ++ ·)) (by simp [← whole])
        cases start with
        | nil => simp [crlf] at last
        | cons c start => simpa using last
    obtain ⟨before, rfl⟩ := List.getLast?_eq_some_iff.mp paired
    exact free ⟨before, onward, by simp [crlf]⟩
  · have same : lineEnd content = ['\n'] := if_neg (mt occurs_iff.mp windows)
    exact free (same ▸ ⟨start, onward, by simp⟩)

theorem HeadingsApart.splitAt_eq (apart : HeadingsApart content) (member : line ∈ linesOf content)
    (heads : isUnreleased line = true) : splitAt '\n' line = [line] := by
  refine splitAt_of_notMem fun broken => ?_
  have whole : '\n' ∉ trim line := by
    have known : trim line ∈ unreleasedHeadings := by simpa [isUnreleased] using heads
    have all : ∀ heading ∈ unreleasedHeadings, '\n' ∉ heading := by decide
    exact all _ known
  obtain ⟨row, inside, same⟩ := exists_trim_row whole
  have none := apart line member broken row inside
  rw [isSection_congr same, isSection_of_isUnreleased heads] at none
  cases none

/-- What only a heading of a section passes, no row passes of lines that do not. -/
theorem HeadingsApart.rows_fail {test : Line → Bool} (apart : HeadingsApart content)
    (heads : ∀ {line : Line}, test line = true → isSection line = true)
    (known : ∀ line ∈ lines, line ∈ linesOf content) (none : ∀ line ∈ lines, test line = false) :
    ∀ row ∈ lines.flatMap (splitAt '\n'), test row = false := by
  intro row member
  obtain ⟨line, member, inside⟩ := List.mem_flatMap.mp member
  by_cases broken : '\n' ∈ line
  · refine Bool.eq_false_iff.mpr fun passed => ?_
    have plain := apart line (known line member) broken row inside
    rw [heads passed] at plain
    cases plain
  · rw [splitAt_of_notMem broken] at inside
    exact List.mem_singleton.mp inside ▸ none line member

theorem trim_rows (content : List Char) :
    (splitAt '\n' content).map trim = ((linesOf content).flatMap (splitAt '\n')).map trim := by
  obtain ⟨mark, ended, unbroken, blank⟩ := exists_mark content
  have rows := trim_rows_join unbroken blank (linesOf_ne_nil content)
  rwa [← ended, join_linesOf] at rows

/-- What no row of some is does not hold of a row that is the same but for white space. -/
theorem forall_of_trim {rows others : List Line} {test : Line → Bool}
    (congr : ∀ {line other : Line}, trim line = trim other → test line = test other)
    (same : rows.map trim = others.map trim) (none : ∀ row ∈ others, test row = false) :
    ∀ row ∈ rows, test row = false := by
  intro row member
  obtain ⟨other, member, same⟩ := List.mem_map.mp (same ▸ List.mem_map_of_mem member)
  exact congr same ▸ none other member

/-- The first unreleased section of the lines is that of the rows, as far as it goes. -/
theorem HeadingsApart.exists_rows (apart : HeadingsApart content)
    (split : linesOf content = front ++ heading :: (body ++ rest))
    (unreleased : Unreleased front heading body rest) :
    ∃ front' heading' body' rest', splitAt '\n' content = front' ++ heading' :: (body' ++ rest') ∧
      Unreleased front' heading' body' rest' ∧
      front'.length = (front.flatMap (splitAt '\n')).length ∧
      (body.flatMap (splitAt '\n')).length ≤ body'.length := by
  have inFront : ∀ line ∈ front, line ∈ linesOf content := fun line member => by simp [split, member]
  have inBody : ∀ line ∈ body, line ∈ linesOf content := fun line member => by simp [split, member]
  have single : splitAt '\n' heading = [heading] :=
    apart.splitAt_eq (by simp [split]) unreleased.heads
  have trimmed := trim_rows content
  rw [split, List.flatMap_append, List.flatMap_cons, List.flatMap_append, single, List.map_append,
    List.singleton_append, List.map_cons, List.map_append] at trimmed
  obtain ⟨front', onward, rows, sameFront, behind⟩ := List.map_eq_append_iff.mp trimmed
  obtain ⟨heading', onward, rfl, sameHeading, behind⟩ := List.map_eq_cons_iff.mp behind
  obtain ⟨inner, onward, rfl, sameBody, _⟩ := List.map_eq_append_iff.mp behind
  -- The body of the rows may go on: a line that heads a section need not have a row that heads one.
  obtain ⟨more, rest', rfl, plain, ended⟩ := exists_sectionEnd onward
  refine ⟨front', heading', inner ++ more, rest', by rw [rows, List.append_assoc], ?_, ?_, ?_⟩
  · constructor
    · exact forall_of_trim isUnreleased_congr sameFront
        (apart.rows_fail isSection_of_isUnreleased inFront unreleased.first)
    · exact (isUnreleased_congr sameHeading).trans unreleased.heads
    · exact List.forall_mem_append.mpr ⟨forall_of_trim isSection_congr sameBody
        (apart.rows_fail id inBody unreleased.inside), plain⟩
    · exact ended
  · simpa using congrArg List.length sameFront
  · have length : inner.length = (body.flatMap (splitAt '\n')).length := by
      simpa using congrArg List.length sameBody
    rw [List.length_append, length]
    exact Nat.le_add_right _ _

theorem HeadingsApart.exists_line (apart : HeadingsApart content)
    (headed : ∃ row ∈ splitAt '\n' content, isUnreleased row = true) :
    ∃ line ∈ linesOf content, isUnreleased line = true := by
  by_contra none
  have plain : ∀ line ∈ linesOf content, isUnreleased line = false := by simpa using none
  obtain ⟨row, member, heads⟩ := headed
  have clear : ∀ row ∈ splitAt '\n' content, isUnreleased row = false :=
    forall_of_trim isUnreleased_congr (trim_rows content)
      (apart.rows_fail isSection_of_isUnreleased (fun _ member => member) plain)
  rw [clear row member] at heads
  cases heads

/-- As many rows as lines have, their text has. -/
theorem length_rows_join (content : List Char) (nonempty : lines ≠ []) :
    (splitAt '\n' (join (lineEnd content) lines)).length = (lines.flatMap (splitAt '\n')).length := by
  obtain ⟨mark, ended, unbroken, blank⟩ := exists_mark content
  rw [ended]
  simpa using congrArg List.length (trim_rows_join unbroken blank nonempty)

/-- The entries stand in the first unreleased section of a text that is read row by row: between two
rows, behind its heading and not behind the next heading of a section. -/
def Lands (content : List Char) (entries : List Line) : Prop :=
  ∃ front heading body rest, splitAt '\n' content = front ++ heading :: (body ++ rest) ∧
    Unreleased front heading body rest ∧
    ∃ before lead after, content = before ++ after ∧
      insertEntries content entries = before ++ (lead ++ entries).flatMap (lineEnd content ++ ·) ++ after ∧
      (lead = [] ∨ lead = [[], changedHeading, []]) ∧ (after = [] ∨ lineEnd content <+: after) ∧
      front.length < (splitAt '\n' before).length ∧
      (splitAt '\n' before).length ≤ front.length + 1 + body.length

/-- The text behind some of its lines, and with entries put in there. -/
theorem insertEntries_eq_append (nonempty : entries ≠ [])
    (split : linesOf content = front ++ heading :: (before ++ after ++ rest))
    (unreleased : Unreleased front heading (before ++ after) rest) (place : Place before lead after) :
    content = join (lineEnd content) (front ++ heading :: before) ++
      (after ++ rest).flatMap (lineEnd content ++ ·) ∧
    insertEntries content entries = join (lineEnd content) (front ++ heading :: before) ++
      (lead ++ entries).flatMap (lineEnd content ++ ·) ++
        (after ++ rest).flatMap (lineEnd content ++ ·) := by
  have some : front ++ heading :: before ≠ [] := by simp
  constructor
  · calc
      content = join (lineEnd content) (linesOf content) := (join_linesOf content).symm
      _ = join (lineEnd content) ((front ++ heading :: before) ++ (after ++ rest)) := by
        rw [split]
        simp
      _ = _ := join_append some
  · rw [insertEntries_eq_join nonempty split unreleased place, List.append_assoc, join_append some,
      List.flatMap_append, ← List.append_assoc]

/-- With a line put in, a text is not what it was. -/
theorem append_lines_ne {front back : List Char} (nonempty : entries ≠ []) :
    front ++ entries.flatMap (lineEnd content ++ ·) ++ back ≠ front ++ back := by
  intro same
  have lengths := congrArg List.length same
  rw [List.length_append, List.length_append, List.length_append] at lengths
  have none : entries.flatMap (lineEnd content ++ ·) = [] := by
    apply List.eq_nil_of_length_eq_zero
    omega
  obtain ⟨entry, member⟩ := List.exists_mem_of_ne_nil entries nonempty
  have empty := List.flatMap_eq_nil_iff.mp none entry member
  obtain ⟨mark, ended, _⟩ := exists_mark content
  simp [ended] at empty

/-- Where no heading of a section shares its line with a lone `\n`, entries land in the first unreleased
section that a reader sees, and the changelog is not what it was. -/
theorem insertEntries_lands (content : List Char) (entries : List Line) (nonempty : entries ≠ [])
    (apart : HeadingsApart content) (headed : ∃ row ∈ splitAt '\n' content, isUnreleased row = true) :
    Lands content entries ∧ insertEntries content entries ≠ content := by
  obtain ⟨front, heading, body, rest, split, unreleased⟩ := exists_unreleased (apart.exists_line headed)
  obtain ⟨before, lead, after, rfl, place⟩ := exists_place body
  obtain ⟨front', heading', body', rest', rows, unreleased', first, far⟩ :=
    apart.exists_rows split unreleased
  obtain ⟨cut, made⟩ := insertEntries_eq_append nonempty split unreleased place
  have single : splitAt '\n' heading = [heading] :=
    apart.splitAt_eq (by simp [split]) unreleased.heads
  have count := length_rows_join content (by simp : front ++ heading :: before ≠ [])
  rw [List.flatMap_append, List.flatMap_cons, single, List.length_append, List.length_append,
    List.length_singleton, ← first] at count
  rw [List.flatMap_append, List.length_append] at far
  constructor
  · refine ⟨front', heading', body', rest', rows, unreleased', _, lead, _, cut, made, ?_, ?_, ?_, ?_⟩
    · cases place with
      | below => exact .inl rfl
      | anew => exact .inr rfl
    · cases after ++ rest with
      | nil => exact .inl rfl
      | cons line lines => exact .inr ⟨line ++ lines.flatMap (lineEnd content ++ ·), by simp⟩
    · omega
    · omega
  · intro same
    exact append_lines_ne (by simp [nonempty]) (made.symm.trans (same.trans cut))

theorem insertEntries_lands_sample :
    let content := "Changes\nof note\r\n## [Unreleased]\r\n".toList
    Lands content ["- b".toList] ∧ insertEntries content ["- b".toList] ≠ content :=
  insertEntries_lands _ _ (by simp) (by unfold HeadingsApart; decide +kernel)
    ⟨"## [Unreleased]\r".toList, by decide +kernel, by decide +kernel⟩

/-- A changelog in which the heading of a release shares its line with a lone `\n`. -/
def mixedChangelog : List Char :=
  "## [Unreleased]\r\n- x\n## [1.0]\r\n### Changed\r\n- a".toList

/-- Where a heading shares its line with a lone `\n`, entries may land in a release. -/
theorem not_insertEntries_lands :
    ¬ ∀ (content : List Char) (entries : List Line), entries ≠ [] →
      (∃ row ∈ splitAt '\n' content, isUnreleased row = true) →
        Lands content entries ∧ insertEntries content entries ≠ content := by
  intro claimed
  obtain ⟨⟨front, heading, body, rest, rows, unreleased, before, lead, after, split, made, leads, _, _,
    ahead⟩, _⟩ := claimed mixedChangelog ["- b".toList] (by simp)
      ⟨"## [Unreleased]\r".toList, by decide +kernel, by decide +kernel⟩
  have added : insertEntries mixedChangelog ["- b".toList] = mixedChangelog ++ "\r\n- b".toList := by
    decide +kernel
  obtain ⟨headed, ended⟩ := unreleased.found
  rw [← rows] at headed ended
  have first : findUnreleased? (splitAt '\n' mixedChangelog) = some 0 := by decide +kernel
  have early : front.length = 0 := Option.some.inj (headed.symm.trans first)
  have release : findSectionEnd (splitAt '\n' mixedChangelog) (0 + 1) = 2 := by decide +kernel
  rw [early] at ended ahead
  have bound : (splitAt '\n' before).length ≤ 2 := by omega
  have windows : lineEnd mixedChangelog = crlf := by decide +kernel
  rw [windows] at made
  have whole := congrArg List.length split
  have longer := congrArg List.length (added.symm.trans made)
  rw [List.length_append] at whole
  rw [List.length_append, List.length_append, List.length_append] at longer
  have alone : lead = [] := by
    rcases leads with none | some
    · exact none
    · have block : ((lead ++ ["- b".toList]).flatMap (crlf ++ ·)).length = 22 := by
        rw [some]
        decide +kernel
      have short : "\r\n- b".toList.length = 5 := by decide +kernel
      omega
  -- Wherever the entry could stand, three rows are before it, and the third is the heading of the release.
  have late : ∀ k < 60, mixedChangelog.take k ++ "\r\n- b".toList ++ mixedChangelog.drop k =
      mixedChangelog ++ "\r\n- b".toList → 2 < (splitAt '\n' (mixedChangelog.take k)).length := by
    decide +kernel
  have size : mixedChangelog.length < 60 := by decide +kernel
  have taken : mixedChangelog.take before.length = before := by rw [split, List.take_left]
  have dropped : mixedChangelog.drop before.length = after := by rw [split, List.drop_left]
  have behind := late before.length (by omega)
  rw [taken, dropped] at behind
  have far := behind (by rw [← added, made, alone]; rfl)
  omega

end InfraPins.Changelog
