import InfraPins.Datum.Access
import InfraPins.Text.Digit
import InfraPins.Text.Search

/-! Reading JSON text. Besides the standard notation the reader takes `NaN` and the two infinities;
of fields with the same name the last value counts, at the place of the first. An integer of more
digits than `Text.maxDigits` is refused. -/

namespace InfraPins.Json

open Text Decimal

def isSpace (c : Char) : Bool :=
  c == ' ' || c == '\t' || c == '\n' || c == '\r'

def skipSpace (text : List Char) : List Char :=
  text.dropWhile isSpace

/-- The value of a hexadecimal digit of either case. -/
def hexValue? (c : Char) : Option Nat :=
  if '0' ≤ c && c ≤ '9' then some (c.toNat - '0'.toNat)
  else if 'a' ≤ c && c ≤ 'f' then some (c.toNat - 'a'.toNat + 10)
  else if 'A' ≤ c && c ≤ 'F' then some (c.toNat - 'A'.toNat + 10)
  else none

/-- The number written by four hexadecimal digits at the start of a text. -/
def codeUnit? : List Char → Option (Nat × List Char)
  | a :: b :: c :: d :: rest => do
    let a ← hexValue? a
    let b ← hexValue? b
    let c ← hexValue? c
    let d ← hexValue? d
    return (((a * 16 + b) * 16 + c) * 16 + d, rest)
  | _ => none

/-- A code point above the basic plane, by its two surrogates. -/
def joinSurrogates (high low : Nat) : Char :=
  Char.ofNat (0x10000 + (high - 0xD800) * 0x400 + (low - 0xDC00))

/-- The character of a `\u` escape whose first code unit has been read. A surrogate without its
partner has none. -/
def escapedCharacter? (unit : Nat) (rest : List Char) : Option Char × List Char :=
  if 0xD800 ≤ unit && unit < 0xDC00 then
    match rest with
    | '\\' :: 'u' :: more => match codeUnit? more with
      | some (low, more) =>
        if 0xDC00 ≤ low && low < 0xE000 then (some (joinSurrogates unit low), more) else (none, rest)
      | none => (none, rest)
    | _ => (none, rest)
  else if 0xDC00 ≤ unit && unit < 0xE000 then (none, rest)
  else (some (Char.ofNat unit), rest)

/-- What is put for a surrogate without its partner. A text of characters cannot hold one. -/
def replacement : Char := Char.ofNat 0xFFFD

/-- Whether the escapes of a text write no surrogate without its partner. Such a text is read as it
stands; of any other one, what is read differs from it. -/
def isPaired : Nat → List Char → Bool
  | 0, _ => true
  | fuel + 1, text => match text with
    | [] => true
    | '\\' :: 'u' :: rest => match codeUnit? rest with
      | some (unit, rest) =>
        let (c?, rest) := escapedCharacter? unit rest
        c?.isSome && isPaired fuel rest
      | none => isPaired fuel rest
    | '\\' :: _ :: rest => isPaired fuel rest
    | _ :: rest => isPaired fuel rest

/-- The characters of a string up to its closing quote. -/
def stringBody : Nat → List Char → List Char → Option (List Char × List Char)
  | 0, _, _ => none
  | fuel + 1, done, text => match text with
    | [] => none
    | '"' :: rest => some (done.reverse, rest)
    | '\\' :: rest => match rest with
      | '"' :: rest => stringBody fuel ('"' :: done) rest
      | '\\' :: rest => stringBody fuel ('\\' :: done) rest
      | '/' :: rest => stringBody fuel ('/' :: done) rest
      | 'b' :: rest => stringBody fuel ('\x08' :: done) rest
      | 'f' :: rest => stringBody fuel ('\x0c' :: done) rest
      | 'n' :: rest => stringBody fuel ('\n' :: done) rest
      | 'r' :: rest => stringBody fuel ('\r' :: done) rest
      | 't' :: rest => stringBody fuel ('\t' :: done) rest
      | 'u' :: rest => match codeUnit? rest with
        | some (unit, rest) =>
          let (c?, rest) := escapedCharacter? unit rest
          stringBody fuel (c?.getD replacement :: done) rest
        | none => none
      | _ => none
    | c :: rest => if c.toNat < 0x20 then none else stringBody fuel (c :: done) rest

/-- The value of ASCII digits. -/
def naturalOf (digits : List Char) : Nat :=
  digits.foldl (fun number digit => number * 10 + (digit.toNat - '0'.toNat)) 0

/-- The whole part of a number: a lone zero, or digits that do not start with one. -/
def wholePart? : List Char → Option (List Char × List Char)
  | '0' :: rest => some (['0'], rest)
  | text =>
    let (digits, rest) := spanWhile Char.isDigit text
    if digits.isEmpty then none else some (digits, rest)

/-- The digits after a decimal point, if a point and a digit follow. -/
def fractionPart (text : List Char) : List Char × List Char :=
  match text with
  | '.' :: rest =>
    let (digits, after) := spanWhile Char.isDigit rest
    if digits.isEmpty then ([], text) else (digits, after)
  | _ => ([], text)

/-- The exponent, if a whole one follows. -/
def exponentPart (text : List Char) : Option Int × List Char :=
  match text with
  | mark :: rest =>
    if mark == 'e' || mark == 'E' then
      let (negative, rest) := match rest with
        | '-' :: rest => (true, rest)
        | '+' :: rest => (false, rest)
        | _ => (false, rest)
      let (digits, after) := spanWhile Char.isDigit rest
      if digits.isEmpty then (none, text)
      else
        let size : Int := naturalOf digits
        (some (if negative then -size else size), after)
    else (none, text)
  | [] => (none, text)

/-- A number at the start of a text, its sign already read. -/
def number? (negative : Bool) (text : List Char) : Option (Datum × List Char) := do
  let (whole, rest) ← wholePart? text
  let (fraction, rest) := fractionPart rest
  let (exponent, rest) := exponentPart rest
  if fraction.isEmpty && exponent.isNone then
    if maxDigits < whole.length then none
    else
      let size : Int := naturalOf whole
      return (.int (if negative then -size else size), rest)
  else
    let exponent := exponent.getD 0 - fraction.length
    return (.float (Binary64.ofDecimal negative (naturalOf (whole ++ fraction)) exponent), rest)

/-- A word that stands for a value. -/
def word? (text : List Char) : Option (Datum × List Char) :=
  [("null", Datum.null), ("true", .bool true), ("false", .bool false), ("NaN", .float Binary64.nan),
    ("Infinity", .float (Binary64.infinity false)),
    ("-Infinity", .float (Binary64.infinity true))].findSome? fun (word, value) =>
      (after? word.toList text).map (value, ·)

mutual

/-- A value at the start of a text. -/
def value? : Nat → List Char → Option (Datum × List Char)
  | 0, _ => none
  | fuel + 1, text => match text with
    | '"' :: rest => (stringBody (rest.length + 1) [] rest).map fun (characters, rest) =>
      (.text (String.ofList characters), rest)
    | '[' :: rest => match skipSpace rest with
      | ']' :: rest => some (.list [], rest)
      | rest => (items? fuel [] rest).map fun (items, rest) => (.list items, rest)
    | '{' :: rest => match skipSpace rest with
      | '}' :: rest => some (.object [], rest)
      | rest => (fields? fuel [] rest).map fun (fields, rest) => (.object fields, rest)
    | text => match word? text with
      | some found => some found
      | none => match text with
        | '-' :: rest => number? true rest
        | _ => number? false text

def items? : Nat → List Datum → List Char → Option (List Datum × List Char)
  | 0, _, _ => none
  | fuel + 1, done, text => do
    let (item, rest) ← value? fuel text
    match skipSpace rest with
    | ',' :: rest => items? fuel (item :: done) (skipSpace rest)
    | ']' :: rest => some ((item :: done).reverse, rest)
    | _ => none

/-- The fields of an object from the next one on. -/
def fields? : Nat → List (Datum × Datum) → List Char → Option (List (Datum × Datum) × List Char)
  | 0, _, _ => none
  | fuel + 1, done, text => match text with
    | '"' :: rest => do
      let (name, rest) ← stringBody (rest.length + 1) [] rest
      match skipSpace rest with
      | ':' :: rest => do
        let (value, rest) ← value? fuel (skipSpace rest)
        let done := Datum.insert (.text (String.ofList name)) value done
        match skipSpace rest with
        | ',' :: rest => fields? fuel done (skipSpace rest)
        | '}' :: rest => some (done, rest)
        | _ => none
      | _ => none
    | _ => none

end

/-- The value that a JSON text writes, if it is one. Lists and objects may be nested to any depth; the
limit that a run time may set for that is left out. -/
def read? (text : String) : Option Datum := do
  let characters := text.toList
  let (value, rest) ← value? (characters.length + 1) (skipSpace characters)
  if (skipSpace rest).isEmpty then some value else none

end InfraPins.Json
