import InfraPins.Text.Percent
import InfraPins.Text.Search

namespace InfraPins.Url

open Text

/-- The segments of a path without lone dots, and without two dots together with the segment before
them. -/
def withoutDots (kept : List (List Char)) : List (List Char) → List (List Char)
  | [] => kept.reverse
  | segment :: rest =>
    if segment = ['.'] then withoutDots kept rest
    else if segment = ['.', '.'] then
      withoutDots (if kept = [[]] then kept else kept.drop 1) rest
    else withoutDots (segment :: kept) rest

/-- A path in its normal form: without dot segments and with everything encoded that a path does not
keep. -/
def normalPath (path : List Char) : List Char :=
  Percent.encode Percent.isPathChar (join ['/'] (withoutDots [] (splitAt '/' path)))

/-- The part of a text before the first of some characters, and the rest. -/
def upTo (marks : List Char) (text : List Char) : List Char × List Char :=
  spanWhile (fun c => !marks.contains c) text

/-- What a reference says: its path and its query, if it has one. A reference that starts with two
slashes names a host first, which has no say. -/
def reference (text : List Char) : List Char × Option (List Char) :=
  let (text, _) := upTo ['#'] text
  let text := match after? ['/', '/'] text with
    | some rest => (upTo ['/', '?'] rest).2
    | none => text
  match upTo ['?'] text with
  | (path, _ :: query) => (path, some query)
  | (path, []) => (path, none)

/-- A query of named values. -/
def query (parameters : List (String × String)) : String :=
  "&".intercalate (parameters.map fun (name, value) =>
    Percent.queryPart name ++ "=" ++ Percent.queryPart value)

/-- The scheme and the host of a base address, and its path. -/
def base (text : List Char) : List Char × List Char :=
  match cutAt? ':' text with
  | some (scheme, '/' :: '/' :: rest) =>
    let (host, path) := upTo ['/'] rest
    (scheme ++ [':', '/', '/'] ++ host.map Char.toLower, path)
  | _ => ([], text)

/-- Parameters as the query of an address, in place of one that it has. -/
def withQuery (address : String) (own : Option (List Char)) :
    Option (List (String × String)) → String
  | some [] => address
  | some parameters => address ++ "?" ++ query parameters
  | none => match own with
    | some own => address ++ "?" ++ String.ofList (Percent.encode Percent.isQueryChar own)
    | none => address

def address (baseText referenceText : String) (parameters : Option (List (String × String))) :
    String :=
  let (host, start) := base baseText.toList
  let (path, own) := reference referenceText.toList
  let whole := start ++ '/' :: path.dropWhile (· == '/')
  withQuery (String.ofList (host ++ normalPath whole)) own parameters

end InfraPins.Url
