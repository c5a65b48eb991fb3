import InfraPins.Text.Blank
import InfraPins.Text.Search

/-! Sources of modules and images. A source is a locator, for a module with an optional query whose
`ref` parameter pins the version; the name of the repository is the last part of the locator. -/

namespace InfraPins.Source

open Text

/-- Openings of sources in version control. -/
def gitOpenings : List String := ["git::", "git@"]

/-- Fragments of sources in version control. -/
def gitFragments : List String :=
  ["github.com", "gitlab.com", "bitbucket.org", "dev.azure.com", "_git/"]

/-- Whether a module source points at a Git repository. -/
def isGit (source : List Char) : Bool :=
  gitOpenings.any (fun opening => opening.toList.isPrefixOf source)
    || gitFragments.any fun fragment => occurs fragment.toList source

/-- A character of a pinned version: all but `&`, the double quote and white space. -/
def isRefChar (c : Char) : Bool :=
  !(c == '&' || c == '"' || isBlank c)

/-- The text `ref=` that names the version parameter. -/
def refKey : List Char := ['r', 'e', 'f', '=']

/-- The value of a `ref` parameter whose mark stands here. -/
def refHere? (text : List Char) : Option (List Char) :=
  match text with
  | mark :: rest =>
    if mark == '?' || mark == '&' then
      match after? refKey rest with
      | some rest =>
        let value := rest.takeWhile isRefChar
        if value.isEmpty then none else some value
      | none => none
    else none
  | [] => none

/-- The pinned version of a module source, or an empty text. -/
def version (source : List Char) : List Char :=
  match findFirst (fun _ rest => refHere? rest) none source with
  | some found => found.value
  | none => []

/-- Whether a query parameter says something other than the version. -/
def isKeptParameter (parameter : List Char) : Bool :=
  !parameter.isEmpty && !refKey.isPrefixOf parameter

/-- A module source without its `ref` parameter; other parameters stay. -/
def withoutVersion (source : List Char) : List Char :=
  match cutAt? '?' source with
  | none => source
  | some (base, query) =>
    match (splitAt '&' query).filter isKeptParameter with
    | [] => base
    | parameters => base ++ '?' :: join ['&'] parameters

def refMark : List Char := '?' :: refKey

/-- What follows a leading `?ref=` with a value. -/
def afterLeadingRef? (text : List Char) : Option (List Char) :=
  match after? refMark text with
  | some rest => if (rest.takeWhile isRefChar).isEmpty then none else some (rest.dropWhile isRefChar)
  | none => none

theorem afterLeadingRef?_length {text rest : List Char} (found : afterLeadingRef? text = some rest) :
    rest.length < text.length := by
  unfold afterLeadingRef? at found
  split at found
  · rename_i value same
    have whole := after?_eq_some_iff.mp same
    split at found
    · simp at found
    · simp only [Option.some.injEq] at found
      have shorter : rest.length ≤ value.length :=
        found ▸ (List.dropWhile_suffix isRefChar).length_le
      rw [whole]
      simp only [List.length_append, refMark, refKey, List.length_cons, List.length_nil]
      omega
  · simp at found

def replaceRefs (version : List Char) (text : List Char) : List Char :=
  match _found : afterLeadingRef? text with
  | some rest => refMark ++ version ++ replaceRefs version rest
  | none => match text with
    | [] => []
    | c :: rest => c :: replaceRefs version rest
termination_by text.length
decreasing_by
  · exact afterLeadingRef?_length _found
  · simp

/-- A module source with a version in its `ref` parameter. -/
def withVersion (source version : List Char) : List Char :=
  if occurs refMark source then replaceRefs version source
  else if source.contains '?' then source ++ '&' :: refKey ++ version
  else source ++ refMark ++ version

/-- A character of a scheme after its first letter. -/
def isSchemeChar (c : Char) : Bool :=
  c.isAlphanum || c == '+' || c == '.' || c == '-'

def withoutScheme (locator : List Char) : List Char :=
  match locator with
  | c :: rest =>
    if c.isAlpha then
      match rest.dropWhile isSchemeChar with
      | ':' :: '/' :: '/' :: rest => rest
      | _ => locator
    else locator
  | [] => []

/-- A text up to the first double slash. -/
def beforeDoubleSlash : List Char → List Char
  | '/' :: '/' :: _ => []
  | c :: rest => c :: beforeDoubleSlash rest
  | [] => []

/-- A text after its last slash or colon. -/
def lastSegment (text : List Char) : List Char :=
  (text.reverse.takeWhile fun c => !(c == '/' || c == ':')).reverse

/-- The ending of a repository's address. -/
def gitSuffix : List Char := ['.', 'g', 'i', 't']

def withoutGitSuffix (name : List Char) : List Char :=
  if gitSuffix.isSuffixOf name then name.take (name.length - gitSuffix.length) else name

/-- The locator of a source: what stands before its query. -/
def locator (source : List Char) : List Char :=
  source.takeWhile (· != '?')

def repositoryName (source : List Char) : List Char :=
  let bare := withoutScheme ((after? "git::".toList (locator source)).getD (locator source))
  let path := ((beforeDoubleSlash bare).reverse.dropWhile (· == '/')).reverse
  withoutGitSuffix (lastSegment path)

end InfraPins.Source
