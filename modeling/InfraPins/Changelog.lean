import InfraPins.Text.Blank
import InfraPins.Text.Search

/-! Changelogs in the common form: a heading for what is unreleased, with a subheading for each kind
of change and bullets below it. New entries go below the bullets under `### Changed`; a changelog
without an unreleased section is left as it is. -/

namespace InfraPins.Changelog

open Text

abbrev Line := List Char

def path : String := "CHANGELOG.md"

def unreleasedHeadings : List Line :=
  ["## [Unreleased]".toList, "## Unreleased".toList]

def changedHeading : Line := "### Changed".toList

def sectionOpening : Line := "## ".toList

def bulletOpenings : List Line := ["- ".toList, "* ".toList]

def isUnreleased (line : Line) : Bool :=
  unreleasedHeadings.contains (trim line)

def isSection (line : Line) : Bool :=
  sectionOpening.isPrefixOf (trim line)

def isChanged (line : Line) : Bool :=
  trim line == changedHeading

def isBlankLine (line : Line) : Bool :=
  (trim line).isEmpty

def isBullet (line : Line) : Bool :=
  bulletOpenings.any fun opening => opening.isPrefixOf (trim line)

/-- The index of the first line, from a given one on and before another, that passes a test. -/
def findLine? (test : Line → Bool) (lines : List Line) (start stop : Nat) : Option Nat :=
  (((lines.take stop).drop start).findIdx? test).map (start + ·)

/-- The index of the first heading of an unreleased section. -/
def findUnreleased? (lines : List Line) : Option Nat :=
  findLine? isUnreleased lines 0 lines.length

/-- The index of the first heading of a section from a line on, or the number of lines. -/
def findSectionEnd (lines : List Line) (start : Nat) : Nat :=
  (findLine? isSection lines start lines.length).getD lines.length

/-- The index of the subheading of changes from a line on and before another. -/
def findChanged? (lines : List Line) (start stop : Nat) : Option Nat :=
  findLine? isChanged lines start stop

/-- The number of lines up to the last bullet of a run of bullets and blank lines, zero when the run
has no bullet. -/
def bulletRun : List Line → Nat
  | [] => 0
  | line :: rest =>
    if isBlankLine line then
      match bulletRun rest with
      | 0 => 0
      | length => length + 1
    else if isBullet line then bulletRun rest + 1
    else 0

/-- The index behind the run of bullets that starts at a line and ends before another. -/
def afterBullets (lines : List Line) (start stop : Nat) : Nat :=
  start + bulletRun ((lines.take stop).drop start)

/-- Lines with others put in before an index. -/
def insertAt (lines : List Line) (index : Nat) (block : List Line) : List Line :=
  lines.take index ++ block ++ lines.drop index

/-- Lines with entries added to the changes of the unreleased section, if there is one. -/
def insertLines? (lines entries : List Line) : Option (List Line) :=
  (findUnreleased? lines).map fun unreleased =>
    let stop := findSectionEnd lines (unreleased + 1)
    match findChanged? lines (unreleased + 1) stop with
    | some changed => insertAt lines (afterBullets lines (changed + 1) stop) entries
    | none => insertAt lines (unreleased + 1) ([[], changedHeading, []] ++ entries)

/-- The line end of a text that has this one anywhere. -/
def crlf : List Char := ['\r', '\n']

/-- A changelog with entries added to its unreleased changes. The text keeps its line ends: `\r\n`
when it has any, and `\n` otherwise. -/
def insertEntries (content : List Char) (entries : List Line) : List Char :=
  if entries.isEmpty then content
  else
    let windows := occurs crlf content
    let lines := if windows then splitAtCrlf content else splitAt '\n' content
    match insertLines? lines entries with
    | some lines => join (if windows then crlf else ['\n']) lines
    | none => content

end InfraPins.Changelog
