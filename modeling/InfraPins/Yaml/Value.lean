import InfraPins.Datum.Access
import InfraPins.Text.Base64
import InfraPins.Text.Search
import InfraPins.Yaml.Node
import InfraPins.Yaml.Time

namespace InfraPins.Yaml

open Text Decimal

def withoutLines (text : String) : List Char :=
  text.toList.filter (· != '_')

def signed (text : List Char) : Bool × List Char :=
  (text.head? == some '-', Resolution.afterSign text)

/-- The digit of a character to bases up to sixteen. -/
def digitOf? (base : Nat) (c : Char) : Option Nat :=
  (Json.hexValue? c).filter (· < base)

def numberTo? (base : Nat) (text : List Char) : Option Nat :=
  if text.isEmpty then none
  else text.foldl (fun number c => do
    return (← number) * base + (← digitOf? base c)) (some 0)

def numberTo (base : Nat) (text : List Char) : Except Fault Nat :=
  match numberTo? base text with
  | some number =>
    if base = 10 ∧ maxDigits < text.length then
      .error (.noValue (tooManyDigits text.length))
    else .ok number
  | none => .error (.noValue ("invalid literal for int() with base " ++ toString base ++ ": "
      ++ quoted (String.ofList text)))

/-- The number whose digits to the base sixty are given, the most significant first. -/
def sexagesimal (digits : List Nat) : Nat :=
  digits.foldl (fun number digit => number * 60 + digit) 0

/-- The size of an integer: to base two, eight, ten, sixteen or sixty. -/
def integerSize (text : List Char) : Except Fault Nat :=
  match text with
  | ['0'] => .ok 0
  | '0' :: 'b' :: digits => numberTo 2 digits
  | '0' :: 'x' :: digits => numberTo 16 digits
  | '0' :: _ => numberTo 8 text
  | _ =>
    if text.contains ':' then do
      return sexagesimal (← (splitAt ':' text).mapM (numberTo 10))
    else numberTo 10 text

def integer (text : String) : Except Fault Datum := do
  let (negative, unsigned) := signed (withoutLines text)
  let size : Int := ← integerSize unsigned
  return .int (if negative then -size else size)

/-- The decimal number that digits with a point and an exponent write: the digits without the point,
and the power of ten that they count. -/
def decimalParts? (text : List Char) : Option (Nat × Int) := do
  let (whole, rest) := spanWhile Char.isDigit text
  let (fraction, rest) := match rest with
    | '.' :: rest => spanWhile Char.isDigit rest
    | rest => ([], rest)
  if whole.isEmpty && fraction.isEmpty then none
  else
    let scale : Int := -fraction.length
    match rest with
    | [] => return (decimalNumber (whole ++ fraction), scale)
    | mark :: rest =>
      let (negative, digits) := signed rest
      let power : Int ← numberTo? 10 digits
      if mark == 'e' || mark == 'E' then
        return (decimalNumber (whole ++ fraction), if negative then scale - power else scale + power)
      else none

def unboundedWords : List (String × (Bool → Binary64)) :=
  [(".inf", Binary64.infinity), (".nan", fun _ => Binary64.nan), ("inf", Binary64.infinity),
    ("infinity", Binary64.infinity), ("nan", fun _ => Binary64.nan)]

/-- The float to the base sixty whose digits are given as texts, of which the last has a fraction.
-/
def sexagesimalFloat? (negative : Bool) (parts : List (List Char)) : Option Binary64 := do
  let whole ← parts.dropLast.mapM (numberTo? 10)
  let (digits, scale) ← decimalParts? (parts.getLast?.getD [])
  let before := sexagesimal whole * 60 * Nat.pow 10 (-scale).toNat
  return Binary64.ofDecimal negative (before + digits) scale

def float (text : String) : Except Fault Datum :=
  let (negative, unsigned) := signed ((withoutLines text).map Char.toLower)
  let word? := unboundedWords.lookup (String.ofList unsigned)
  let number? := if unsigned.contains ':' then sexagesimalFloat? negative (splitAt ':' unsigned)
    else (decimalParts? unsigned).map fun (digits, power) => Binary64.ofDecimal negative digits power
  match (word?.map (· negative)).or number? with
  | some number => .ok (.float number)
  | none => .error (.noValue ("could not convert string to float: "
      ++ quoted (String.ofList unsigned)))

def truthValue (text : String) : Except Fault Datum :=
  let lower := String.ofList (text.toList.map Char.toLower)
  if ["yes", "true", "on"].contains lower then .ok (.bool true)
  else if ["no", "false", "off"].contains lower then .ok (.bool false)
  else .error (.noTruthValue lower)

/-- The octets that a text in Base64 writes. -/
def octets (text : String) : Except Fault Datum :=
  if text.toList.all fun c => c.toNat < 0x80 then
    match Base64.decode text.toList with
    | some octets => .ok (.bytes (octets.map UInt8.toNat))
    | none => .error .malformed
  else .error .malformed

/-- What a tag's type is called, if it is one of the common types. -/
def typeOfTag? (tag : String) : Option String :=
  (after? coreTag.toList tag.toList).map String.ofList

def scalarValue (tag text : String) : Except Fault Datum :=
  match typeOfTag? tag with
  | some "null" => .ok .null
  | some "bool" => truthValue text
  | some "int" => integer text
  | some "float" => float text
  | some "binary" => octets text
  | some "timestamp" => Time.ofText text
  | some "str" => .ok (.text text)
  | _ => .error .malformed

def Node.fieldsOf : Node → Except Fault (List (Node × Node))
  | .mapping _ fields => .ok fields
  | _ => .error .malformed

/-- The fields that a key `<<` takes over: those of a mapping, or of a list of mappings of which the
first win. -/
def Node.takenOver : Node → Except Fault (List (Node × Node))
  | .mapping _ fields => .ok fields
  | .sequence _ items => do
    return (← items.mapM Node.fieldsOf).reverse.flatten
  | .scalar _ _ => .error .malformed

/-- A key; the key `=` is a text. -/
def Node.asKey : Node → Node
  | .scalar tag text => .scalar (if tag = coreTag ++ "value" then coreTag ++ "str" else tag) text
  | node => node

mutual

/-- A node in which every mapping has the fields that it takes over. -/
def Node.flatten : Node → Except Fault Node
  | .scalar tag text => .ok (.scalar tag text)
  | .sequence tag items => do
    return .sequence tag (← flattenItems items)
  | .mapping tag fields => do
    let (taken, own) ← flattenFields fields
    return .mapping tag (taken ++ own)

/-- Items in which every mapping has the fields that it takes over. -/
def Node.flattenItems : List Node → Except Fault (List Node)
  | [] => .ok []
  | item :: items => do
    return (← item.flatten) :: (← flattenItems items)

/-- The fields that are taken over by fields, and the others. -/
def Node.flattenFields : List (Node × Node) → Except Fault (List (Node × Node) × List (Node × Node))
  | [] => .ok ([], [])
  | (key, value) :: fields => do
    let key ← key.flatten
    let value ← value.flatten
    let (taken, own) ← flattenFields fields
    if key.tag = coreTag ++ "merge" then return ((← value.takenOver) ++ taken, own)
    else return (taken, (key.asKey, value) :: own)

end

def isKey : Datum → Bool
  | .list _ | .object _ | .set _ => false
  | _ => true

/-- Fields as a mapping has them: of the same key the last value counts, at the place of the first.
-/
def mappingOf (fields : List (Datum × Datum)) : Except Fault (List (Datum × Datum)) :=
  if fields.all fun field => isKey field.1 then
    .ok (fields.foldl (fun done field => Datum.insert field.1 field.2 done) [])
  else .error .malformed

/-- The only field of a mapping, as a pair. -/
def pairOf : Datum → Except Fault Datum
  | .object [(key, value)] => .ok (.pair key value)
  | _ => .error .malformed

mutual

/-- The value of a node without keys that take fields over. -/
def Node.value : Node → Except Fault Datum
  | .scalar tag text => scalarValue tag text
  | .sequence tag items => do
    let items ← values items
    match typeOfTag? tag with
    | some "seq" => return .list items
    | some "omap" | some "pairs" => return .list (← items.mapM pairOf)
    | _ => throw .malformed
  | .mapping tag fields => do
    let fields ← mappingOf (← fieldValues fields)
    match typeOfTag? tag with
    | some "map" => return .object fields
    | some "set" => return .set (fields.map (·.1))
    | _ => throw .malformed

def Node.values : List Node → Except Fault (List Datum)
  | [] => .ok []
  | item :: items => do
    return (← item.value) :: (← values items)

def Node.fieldValues : List (Node × Node) → Except Fault (List (Datum × Datum))
  | [] => .ok []
  | (key, value) :: fields => do
    return (← key.value, ← value.value) :: (← fieldValues fields)

end

/-- The value of the only document of a text; null when there is none. -/
def read (text : String) : Except Fault Datum := do
  let tokens ← Token.ofText (normaliseLineEnds text.toList)
  match Node.ofTokens? tokens with
  | none => throw .malformed
  | some none => return .null
  | some (some node) => (← node.flatten).value

end InfraPins.Yaml
