import InfraPins.Text.Search

namespace InfraPins.Yaml

open Text

/-- What the tags of the common types start with. -/
def coreTag : String := "tag:yaml.org,2002:"

namespace Resolution

/-- The rest of a text behind an optional sign. -/
def afterSign (text : List Char) : List Char :=
  match text with
  | c :: rest => if c == '+' || c == '-' then rest else text
  | [] => []

/-- A decimal digit or an underscore. -/
def isDigitOrLine (c : Char) : Bool :=
  c.isDigit || c == '_'

/-- Digits and underscores that start with a digit: the rest of the text behind them. -/
def number? (text : List Char) : Option (List Char) :=
  match text with
  | c :: rest => if c.isDigit then some (rest.dropWhile isDigitOrLine) else none
  | [] => none

/-- Whether every character passes a test, and there is one. -/
def allOf (test : Char → Bool) (text : List Char) : Bool :=
  !text.isEmpty && text.all test

/-- Whether a text is a number below sixty of one or two digits. -/
def isSixtieth (text : List Char) : Bool :=
  match text with
  | [digit] => digit.isDigit
  | [ten, digit] => '0' ≤ ten && ten ≤ '5' && digit.isDigit
  | _ => false

/-- Whether a text is empty or an exponent with a sign. -/
def isExponent (text : List Char) : Bool :=
  match text with
  | [] => true
  | mark :: sign :: digits =>
    (mark == 'e' || mark == 'E') && (sign == '+' || sign == '-') && allOf Char.isDigit digits
  | _ => false

/-- Whether a text is the part of a float behind its point. -/
def isFraction (text : List Char) : Bool :=
  isExponent (text.dropWhile isDigitOrLine)

/-- Whether a text is a float to the base sixty. -/
def isSexagesimalFloat (text : List Char) : Bool :=
  match splitAt ':' text with
  | first :: second :: more =>
    let parts := second :: more
    let last := parts.getLast?.getD []
    number? first == some [] && parts.dropLast.all isSixtieth
      && match cutAt? '.' last with
        | some (whole, fraction) => isSixtieth whole && fraction.all isDigitOrLine
        | none => false
  | _ => false

def isFloat (text : List Char) : Bool :=
  let unsigned := afterSign text
  let decimal := match number? unsigned with
    | some ('.' :: fraction) => isFraction fraction
    | _ => false
  let point := match text with
    | '.' :: fraction => (fraction.head?.any Char.isDigit) && isFraction fraction
    | _ => false
  decimal || point || isSexagesimalFloat unsigned
    || [".inf", ".Inf", ".INF"].contains (String.ofList unsigned)
    || [".nan", ".NaN", ".NAN"].contains (String.ofList text)

/-- Whether a text is an integer to the base sixty. -/
def isSexagesimal (text : List Char) : Bool :=
  match splitAt ':' text with
  | first :: second :: more =>
    first.head? != some '0' && number? first == some [] && (second :: more).all isSixtieth
  | _ => false

/-- A hexadecimal digit or an underscore. -/
def isHexOrLine (c : Char) : Bool :=
  isDigitOrLine c || ('a' ≤ c && c ≤ 'f') || ('A' ≤ c && c ≤ 'F')

def isInteger (text : List Char) : Bool :=
  let unsigned := afterSign text
  isSexagesimal unsigned || match unsigned with
    | ['0'] => true
    | '0' :: 'b' :: digits => allOf (fun c => c == '0' || c == '1' || c == '_') digits
    | '0' :: 'x' :: digits => allOf isHexOrLine digits
    | '0' :: digits => allOf (fun c => ('0' ≤ c && c ≤ '7') || c == '_') digits
    | other => number? other == some []

/-- One or two digits, and the rest of the text. -/
def upToTwoDigits? : List Char → Option (List Char × List Char)
  | a :: b :: rest =>
    if a.isDigit then if b.isDigit then some ([a, b], rest) else some ([a], b :: rest) else none
  | [a] => if a.isDigit then some ([a], []) else none
  | [] => none

/-- A given number of digits, and the rest of the text. -/
def digits? (count : Nat) (text : List Char) : Option (List Char × List Char) :=
  let digits := text.take count
  if digits.length = count ∧ digits.all Char.isDigit then some (digits, text.drop count) else none

/-- The parts of a time: year, month and day, and the time of the day. -/
structure TimeParts where
  year : List Char
  month : List Char
  day : List Char
  clock : Option (List Char × List Char × List Char)
  fraction : List Char
  /-- The sign, the hours and the minutes of the zone; no sign stands for universal time. -/
  zone : Option (Option (Char × List Char × List Char))
  deriving DecidableEq, Repr

def zone? (text : List Char) : Option (Option (Option (Char × List Char × List Char))) :=
  match text.dropWhile fun c => c == ' ' || c == '\t' with
  | [] => if text.isEmpty then some none else none
  | ['Z'] => some (some none)
  | sign :: rest =>
    if sign == '+' || sign == '-' then do
      let (hours, rest) ← upToTwoDigits? rest
      match rest with
      | [] => some (some (some (sign, hours, [])))
      | ':' :: rest =>
        let (minutes, rest) ← digits? 2 rest
        if rest.isEmpty then some (some (some (sign, hours, minutes))) else none
      | _ => none
    else none

/-- The text behind what parts a date from the time of the day. -/
def afterDate? (text : List Char) : Option (List Char) :=
  match text with
  | [] => none
  | c :: rest =>
    if c == 'T' || c == 't' then some rest
    else
      let rest' := text.dropWhile fun c => c == ' ' || c == '\t'
      if rest'.length < text.length then some rest' else none

def timeParts? (text : List Char) : Option TimeParts := do
  let (year, rest) ← digits? 4 text
  let rest ← after? ['-'] rest
  let (month, rest) ← upToTwoDigits? rest
  let rest ← after? ['-'] rest
  let (day, rest) ← upToTwoDigits? rest
  if rest.isEmpty then return ⟨year, month, day, none, [], none⟩
  else
    let rest ← afterDate? rest
    let (hour, rest) ← upToTwoDigits? rest
    let rest ← after? [':'] rest
    let (minute, rest) ← digits? 2 rest
    let rest ← after? [':'] rest
    let (second, rest) ← digits? 2 rest
    let (fraction, rest) := match rest with
      | '.' :: rest => spanWhile Char.isDigit rest
      | rest => ([], rest)
    let zone ← zone? rest
    return ⟨year, month, day, some (hour, minute, second), fraction, zone⟩

/-- Whether a text is a time. A date alone has two digits for its month and for its day. -/
def isTime (text : List Char) : Bool :=
  match timeParts? text with
  | some parts => parts.clock.isSome || (parts.month.length = 2 && parts.day.length = 2)
  | none => false

def truthTexts : List String :=
  ["yes", "Yes", "YES", "no", "No", "NO", "true", "True", "TRUE", "false", "False", "FALSE",
    "on", "On", "ON", "off", "Off", "OFF"]

def nullTexts : List String := ["~", "null", "Null", "NULL", ""]

/-- The type that a text looks like. -/
def typeOf (text : String) : String :=
  let characters := text.toList
  if truthTexts.contains text then "bool"
  else if isFloat characters then "float"
  else if isInteger characters then "int"
  else if text = "<<" then "merge"
  else if nullTexts.contains text then "null"
  else if isTime characters then "timestamp"
  else if text = "=" then "value"
  else if ["!", "&", "*"].contains text then "yaml"
  else "str"

end Resolution

def plainTag (text : String) : String :=
  coreTag ++ Resolution.typeOf text

end InfraPins.Yaml
