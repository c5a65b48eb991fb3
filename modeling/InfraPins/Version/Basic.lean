import InfraPins.Text.Digit
import InfraPins.Text.Quoted
import InfraPins.Text.Search

/-! Versions as Git tags and image tags write them. A version is a leading `v`, one to three numbers
and, after three, an optional pre-release and optional build metadata. The shorthand forms `v1` and
`v1.2` mean `v1.0.0` and `v1.2.0`. Build metadata is read and dropped. -/

namespace InfraPins

open Text

/-- A semantic version without its build metadata. -/
structure SemVer where
  major : Nat
  minor : Nat
  patch : Nat
  prerelease : List (List Char)
  deriving DecidableEq, Repr

namespace Version

/-- Why a comparison of versions failed. -/
inductive Fault where
  /-- A number has more digits than can be read. -/
  | tooManyDigits (count : Nat)
  /-- A text that has to be a version is none. -/
  | notSemantic (text : String)
  deriving DecidableEq, Repr

def Fault.message : Fault → String
  | .tooManyDigits count => Text.tooManyDigits count
  | .notSemantic text => "not a semantic version: " ++ quoted text

/-- A version without surrounding white space and with a leading `v`. -/
def normalize (text : List Char) : List Char :=
  match trim text with
  | 'v' :: rest => 'v' :: rest
  | rest => 'v' :: rest

/-- The digits of a number field: a lone zero, or digits that do not start with one. -/
def numberField? : List Char → Option (List Char × List Char)
  | [] => none
  | c :: rest =>
    if c == '0' then some (['0'], rest)
    else if '1' ≤ c && c ≤ '9' then
      let (digits, rest) := spanWhile isDecimal rest
      some (c :: digits, rest)
    else none

/-- A character of a pre-release or build identifier. -/
def isIdentifierChar (c : Char) : Bool :=
  c.isAlphanum || c == '-'

/-- Identifiers separated by dots, none of them empty. -/
def identifiers? (text : List Char) : Option (List (List Char) × List Char) :=
  let (run, rest) := spanWhile (fun c => isIdentifierChar c || c == '.') text
  let parts := splitAt '.' run
  if parts.any List.isEmpty then none else some (parts, rest)

/-- Identifiers behind a mark, or none when the mark is not there. -/
def marked? (mark : Char) (text : List Char) : Option (List (List Char) × List Char) :=
  match text with
  | c :: rest => if c == mark then identifiers? rest else some ([], text)
  | [] => some ([], text)

/-- The digits of the three numbers and the pre-release identifiers. A missing number is a zero. -/
structure Shape where
  major : List Char
  minor : List Char
  patch : List Char
  prerelease : List (List Char)
  deriving DecidableEq, Repr

/-- The number field behind a dot, or none when no dot is there. -/
def nextNumber? (text : List Char) : Option (Option (List Char) × List Char) :=
  match text with
  | '.' :: rest => (numberField? rest).map fun (digits, rest) => (some digits, rest)
  | _ => some (none, text)

/-- The shape at the start of a text, and what follows it. -/
def shapePrefix? (text : List Char) : Option (Shape × List Char) := do
  let rest ← after? ['v'] text
  let (major, rest) ← numberField? rest
  let (minor, rest) ← nextNumber? rest
  match minor with
  | none => return (⟨major, ['0'], ['0'], []⟩, rest)
  | some minor =>
    let (patch, rest) ← nextNumber? rest
    match patch with
    | none => return (⟨major, minor, ['0'], []⟩, rest)
    | some patch =>
      let (prerelease, rest) ← marked? '-' rest
      let (_, rest) ← marked? '+' rest
      return (⟨major, minor, patch, prerelease⟩, rest)

/-- A pre-release identifier of digits only. -/
def isNumeric (identifier : List Char) : Bool :=
  !identifier.isEmpty && identifier.all Char.isDigit

def hasLeadingZero (identifier : List Char) : Bool :=
  isNumeric identifier && decide (1 < identifier.length) && identifier.head? == some '0'

/-- The shape of a text that is a version, at most followed by one line end. -/
def shape? (text : List Char) : Option Shape := do
  let (shape, rest) ← shapePrefix? text
  if (rest == [] || rest == ['\n']) && !shape.prerelease.any hasLeadingZero then some shape
  else none

/-- The number that digits write, unless there are too many of them. -/
def readNumber (digits : List Char) : Except Fault Nat :=
  if maxDigits < digits.length then .error (.tooManyDigits digits.length)
  else .ok (decimalNumber digits)

def Shape.read (shape : Shape) : Except Fault SemVer := do
  let major ← readNumber shape.major
  let minor ← readNumber shape.minor
  let patch ← readNumber shape.patch
  return ⟨major, minor, patch, shape.prerelease⟩

def parse (text : List Char) : Except Fault (Option SemVer) :=
  match shape? text with
  | some shape => shape.read.map some
  | none => .ok none

def isSemantic (text : List Char) : Except Fault Bool :=
  (parse text).map Option.isSome

/-- Whether a text is a version once normalized. -/
def isSemanticLike (text : List Char) : Except Fault Bool :=
  isSemantic (normalize text)

end Version

end InfraPins
