import InfraPins.Text.Search

/-! Paths. A path is a root and parts; slashes that repeat, slashes at the end and parts that are a
lone dot have no say, while two dots stay as they are. -/

namespace InfraPins

open Text

/-- A path. Its root is empty for a relative path, and a slash or two slashes for an absolute one.
-/
structure Path where
  root : String
  parts : List String
  deriving DecidableEq, Repr

namespace Path

/-- The root of a path: exactly two slashes at the start are one of their own, any other number
counts as one. -/
def rootOf (text : List Char) : String :=
  match text.takeWhile (· == '/') with
  | [] => ""
  | ['/', '/'] => "//"
  | _ => "/"

def isPart (piece : List Char) : Bool :=
  !piece.isEmpty && piece != ['.']

def ofText (text : String) : Path where
  root := rootOf text.toList
  parts := ((splitAt '/' text.toList).filter isPart).map String.ofList

/-- The text of a path; the path of no parts is a lone dot. -/
def text (path : Path) : String :=
  if path.root.isEmpty && path.parts.isEmpty then "."
  else path.root ++ "/".intercalate path.parts

def child (path : Path) (part : String) : Path :=
  { path with parts := path.parts ++ [part] }

/-- The suffix of a file name: from its last dot on, unless that dot is its first or last
character. -/
def suffixOf (name : List Char) : List Char :=
  let tail := (name.reverse.takeWhile (· != '.')).reverse
  if tail.isEmpty || name.length ≤ tail.length + 1 then [] else '.' :: tail

def suffix (path : Path) : String :=
  String.ofList (suffixOf (path.parts.getLast?.getD "").toList)

end Path

end InfraPins
