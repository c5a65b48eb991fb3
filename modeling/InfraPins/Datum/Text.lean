import InfraPins.Datum.Basic
import InfraPins.Decimal.Shortest
import InfraPins.Text.Digit

namespace InfraPins.Datum

def quotedOctet (quote : Char) (octet : Nat) : List Char :=
  if octet == quote.toNat || octet == 0x5C then ['\\', Char.ofNat octet]
  else if octet == 0x0A then ['\\', 'n']
  else if octet == 0x0D then ['\\', 'r']
  else if octet == 0x09 then ['\\', 't']
  else if 0x20 ≤ octet && octet < 0x7F then [Char.ofNat octet]
  else '\\' :: 'x' :: Text.hexPadded 2 octet

/-- Octets as a quoted text marked by a leading `b`. -/
def quotedOctets (octets : List Nat) : String :=
  let quote := Text.quoteFor (octets.map Char.ofNat)
  String.ofList ('b' :: quote :: octets.flatMap (quotedOctet quote) ++ [quote])

mutual

/-- A value as it is written inside a list or an object. -/
def written : Datum → String
  | .null => "None"
  | .bool value => if value then "True" else "False"
  | .int value => toString value
  | .float value => value.shortest
  | .text value => Text.quoted value
  | .list items => "[" ++ writtenItems items ++ "]"
  | .object fields => "\x7b" ++ writtenFields fields ++ "\x7d"
  | .set items => if items.isEmpty then "set()" else "\x7b" ++ writtenItems items ++ "\x7d"
  | .pair first second => "(" ++ written first ++ ", " ++ written second ++ ")"
  | .bytes octets => quotedOctets octets
  | .stamp _ nested => nested

/-- Values separated by commas. -/
def writtenItems : List Datum → String
  | [] => ""
  | [item] => written item
  | item :: items => written item ++ ", " ++ writtenItems items

/-- Fields separated by commas, the name before a colon. -/
def writtenFields : List (Datum × Datum) → String
  | [] => ""
  | [(key, value)] => written key ++ ": " ++ written value
  | (key, value) :: fields => written key ++ ": " ++ written value ++ ", " ++ writtenFields fields

end

def plain : Datum → String
  | .text value => value
  | .stamp plain _ => plain
  | other => other.written

/-- Whether an integer takes no more digits than are written. -/
def isShort (value : Int) : Bool :=
  value.natAbs < Nat.pow 10 Text.maxDigits

mutual

/-- Whether a value can be written: no integer in it takes too many digits. -/
def isWritable : Datum → Bool
  | .int value => isShort value
  | .list items | .set items => areWritable items
  | .object fields => haveWritable fields
  | .pair first second => isWritable first && isWritable second
  | .null | .bool _ | .float _ | .text _ | .bytes _ | .stamp _ _ => true

/-- Whether all of some values can be written. -/
def areWritable : List Datum → Bool
  | [] => true
  | item :: items => isWritable item && areWritable items

/-- Whether the names and the values of all fields can be written. -/
def haveWritable : List (Datum × Datum) → Bool
  | [] => true
  | (key, value) :: fields => isWritable key && isWritable value && haveWritable fields

end

end InfraPins.Datum
