import InfraPins.Failure
import InfraPins.Sorting

/-! The order of versions. Two versions compare by their numbers, then by their pre-releases; texts
of which one is no version compare by code points. -/

namespace InfraPins.Version

open Text

/-- The order of two identifiers that differ: numbers by their value, a number below a word, words
by code points. -/
def compareIdentifier (left right : List Char) : Except Fault Ordering :=
  match isNumeric left, isNumeric right with
  | true, true => do
    let first ← readNumber left
    let second ← readNumber right
    return if first < second then .lt else .gt
  | true, false => .ok .lt
  | false, true => .ok .gt
  | false, false => .ok (if left < right then .lt else .gt)

/-- The order of two lists of identifiers: that of the first two that differ, and a list below one
that it starts. -/
def compareIdentifiers : (left right : List (List Char)) → Except Fault Ordering
  | [], [] => .ok .eq
  | [], _ :: _ => .ok .lt
  | _ :: _, [] => .ok .gt
  | left :: lefts, right :: rights =>
    if left = right then compareIdentifiers lefts rights else compareIdentifier left right

/-- The order of two pre-releases: a version without one is above every version with one. -/
def comparePrerelease (left right : List (List Char)) : Except Fault Ordering :=
  match left, right with
  | [], [] => .ok .eq
  | [], _ :: _ => .ok .gt
  | _ :: _, [] => .ok .lt
  | left, right => compareIdentifiers left right

def compareNumbers (left right : SemVer) : Ordering :=
  (compare left.major right.major).then
    ((compare left.minor right.minor).then (compare left.patch right.patch))

def compareSemVer (left right : SemVer) : Except Fault Ordering :=
  match compareNumbers left right with
  | .eq => comparePrerelease left.prerelease right.prerelease
  | order => .ok order

/-- The precedence of two texts, each of which has to be a version once normalized. -/
def compare (left right : List Char) : Except Fault Ordering := do
  let first ← parse (normalize left)
  let second ← parse (normalize right)
  match first, second with
  | some first, some second => compareSemVer first second
  | none, _ => throw (.notSemantic (String.ofList left))
  | some _, none => throw (.notSemantic (String.ofList right))

/-- Whether a candidate is strictly newer than the current version: by precedence when both are
versions, by code points when one is not. -/
def isNewer (current candidate : List Char) : Except Fault Bool := do
  if (← isSemanticLike current) then
    if (← isSemanticLike candidate) then
      return (← compare candidate current) == .gt
    else return decide (current < candidate)
  else return decide (current < candidate)

/-- What part of a version an upgrade changes. -/
inductive Bump where
  | major
  | minor
  | patch
  deriving DecidableEq, Repr

def Bump.name : Bump → String
  | .major => "major"
  | .minor => "minor"
  | .patch => "patch"

def bump? (current latest : List Char) : Except Fault (Option Bump) := do
  let first ← parse (normalize current)
  let second ← parse (normalize latest)
  match first, second with
  | some first, some second =>
    if first.major ≠ second.major then return some .major
    else if first.minor ≠ second.minor then return some .minor
    else return some .patch
  | _, _ => return none

/-- Whether a tag is newer than another. A tag that is compared has to be a text. -/
def isNewerTag (current candidate : Datum) : Except Failure Bool :=
  match current, candidate with
  | .text current, .text candidate =>
    Failure.ofVersion (isNewer current.toList candidate.toList)
  | .text current, _ => do
    if (← Failure.ofVersion (isSemanticLike current.toList)) then throw (.misuse .noMember)
    else throw (.misuse .unsupported)
  | _, _ => .error (.misuse .noMember)

/-- Whether a tag comes below another. -/
def isBelow (left right : Datum) : Except Failure Bool := do
  if (← isNewerTag right left) then return false else isNewerTag left right

/-- Tags, newest first. -/
def sortTags (tags : List Datum) : Except Failure (List Datum) :=
  Sorting.descending isBelow tags

end InfraPins.Version
