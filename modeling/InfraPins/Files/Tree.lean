import InfraPins.Files.Path
import InfraPins.Text.Quoted
import InfraPins.Text.Search
import InfraPins.Text.Utf8

/-! Files and directories. A tree says what stands at which place; a directory need not be mentioned
when something stands below it. -/

namespace InfraPins

open Text

/-- What a system says when it refuses something for reasons of its own, such as rights that are
lacking. -/
structure Refusal where
  number : Nat
  words : String
  deriving DecidableEq, Repr

/-- What stands at a place. -/
inductive FileEntry where
  | file (octets : List UInt8)
  | directory
  /-- A file that may not be opened. -/
  | sealed (refusal : Refusal)
  /-- A directory that may not be searched. -/
  | closed (refusal : Refusal)
  /-- Something that may not even be looked at. -/
  | hidden (refusal : Refusal)
  deriving DecidableEq, Repr

/-- Places with what stands there. A place is the list of names that lead to it from the root. -/
abbrev FileTree := List (List String × FileEntry)

/-- Why a path does not lead to what is wanted. -/
inductive FileFault where
  | notFound
  | notDirectory
  | isDirectory
  | nameTooLong
  | refused (refusal : Refusal)
  /-- No path holds the null character. -/
  | notPath
  /-- The file is not UTF-8. -/
  | notText (fault : Utf8.Fault)
  deriving DecidableEq, Repr

/-- A system's refusal by its number, its words and the path it is about. -/
def FileFault.refusal (number : Nat) (words path : String) : String :=
  "[Errno " ++ toString number ++ "] " ++ words ++ ": " ++ quoted path

/-- What is said about octets that are no UTF-8. -/
def FileFault.notTextMessage (fault : Utf8.Fault) : String :=
  let place :=
    if fault.width = 1 then
      "byte 0x" ++ String.ofList (hexPadded 2 fault.octet.toNat) ++ " in position "
        ++ toString fault.position
    else
      "bytes in position " ++ toString fault.position ++ "-"
        ++ toString (fault.position + fault.width - 1)
  "'utf-8' codec can't decode " ++ place ++ ": " ++ fault.reason.text

def FileFault.message (fault : FileFault) (path : String) : String :=
  match fault with
  | .notFound => refusal 2 "No such file or directory" path
  | .notDirectory => refusal 20 "Not a directory" path
  | .isDirectory => refusal 21 "Is a directory" path
  | .nameTooLong => refusal 36 "File name too long" path
  | .refused cause => refusal cause.number cause.words path
  | .notPath => "embedded null byte"
  | .notText fault => notTextMessage fault

namespace FileTree

/-- The longest name, in octets. -/
def maxName : Nat := 255

/-- The length in octets that no path reaches. -/
def maxPath : Nat := 4096

/-- What stands at a place, if anything does. -/
def look? (tree : FileTree) (place : List String) : Option FileEntry :=
  match tree.lookup place with
  | some entry => some entry
  | none =>
    if place.isEmpty || tree.any (fun entry => place.isPrefixOf entry.1) then some .directory
    else none

/-- The place that names lead to from another place, and what stands there. Two dots lead back, and
stay at the root. -/
def walk (tree : FileTree) (place : List String) :
    List String → Except FileFault (List String × FileEntry)
  | [] =>
    match tree.look? place with
    | some (.hidden refusal) => .error (.refused refusal)
    | some entry => .ok (place, entry)
    | none => .error .notFound
  | name :: names =>
    match tree.look? place with
    | none => .error .notFound
    | some (.file _) | some (.sealed _) => .error .notDirectory
    | some (.closed refusal) | some (.hidden refusal) => .error (.refused refusal)
    | some .directory =>
      if name = ".." then walk tree place.dropLast names
      else if maxName < name.utf8ByteSize then .error .nameTooLong
      else walk tree (place ++ [name]) names

/-- The place that a path leads to from a directory, and what stands there. -/
def find (tree : FileTree) (directory : List String) (path : Path) :
    Except FileFault (List String × FileEntry) :=
  if path.text.toList.contains '\x00' then .error .notPath
  else if maxPath ≤ path.text.utf8ByteSize then .error .nameTooLong
  else walk tree (if path.root.isEmpty then directory else []) path.parts

/-- The text of octets, with every line end as a line feed. -/
def textOf (octets : List UInt8) : Except FileFault String :=
  match Utf8.decode octets with
  | .ok text => .ok (String.ofList (normaliseLineEnds text))
  | .error fault => .error (.notText fault)

/-- Whether something keeps a system from listing a place. -/
def bars (tree : FileTree) (place : List String) : Bool :=
  tree.any fun entry => match entry with
    | (there, .closed _) | (there, .hidden _) => there.isPrefixOf place && there ≠ place
    | _ => false

/-- The names that lead from a place to what stands below it and is no directory, as far as it can be
listed. -/
def filesBelow (tree : FileTree) (place : List String) : List (List String) :=
  (tree.filterMap fun entry => match entry with
    | (_, .directory) | (_, .closed _) => none
    | (there, _) =>
      if place.isPrefixOf there ∧ tree.look? there ≠ some .directory ∧ !tree.bars there then
        some (there.drop place.length)
      else none).eraseDups

end FileTree

end InfraPins
