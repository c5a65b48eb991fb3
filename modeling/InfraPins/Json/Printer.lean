import InfraPins.Datum.Text

namespace InfraPins.Json

open Text Decimal

/-- A code point above the basic plane as two escaped surrogates. -/
def surrogateEscape (code : Nat) : List Char :=
  let offset := code - 0x10000
  '\\' :: 'u' :: hexPadded 4 (0xD800 + offset / 0x400)
    ++ '\\' :: 'u' :: hexPadded 4 (0xDC00 + offset % 0x400)

/-- One character inside a string. -/
def stringChar (ascii : Bool) (c : Char) : List Char :=
  if c == '"' || c == '\\' then ['\\', c]
  else if c == '\n' then ['\\', 'n']
  else if c == '\r' then ['\\', 'r']
  else if c == '\t' then ['\\', 't']
  else if c == '\x08' then ['\\', 'b']
  else if c == '\x0c' then ['\\', 'f']
  else if c.toNat < 0x20 then '\\' :: 'u' :: hexPadded 4 c.toNat
  else if !ascii || c.toNat < 0x7F then [c]
  else if c.toNat == 0x7F then [c]
  else if c.toNat < 0x10000 then '\\' :: 'u' :: hexPadded 4 c.toNat
  else surrogateEscape c.toNat

def string (ascii : Bool) (text : String) : String :=
  String.ofList ('"' :: text.toList.flatMap (stringChar ascii) ++ ['"'])

/-- A floating point number; JSON has no notation for what is not finite, so words stand for it. -/
def float (number : Binary64) : String :=
  match number.reading with
  | .notANumber => "NaN"
  | .infinite negative => if negative then "-Infinity" else "Infinity"
  | .finite _ _ _ => number.shortest

/-- The name of a field: a text as it is, and any other key by its JSON notation. -/
def keyText : Datum → String
  | .text name => name
  | .null => "null"
  | .bool value => if value then "true" else "false"
  | .float number => float number
  | key => key.plain

def scalar (ascii : Bool) : Datum → String
  | .null => "null"
  | .bool value => if value then "true" else "false"
  | .int value => toString value
  | .float number => float number
  | .text value => string ascii value
  | other => string ascii other.plain

mutual

/-- A value without white space. -/
def compact (ascii : Bool) : Datum → String
  | .list items => "[" ++ compactItems ascii items ++ "]"
  | .set items => "[" ++ compactItems ascii items ++ "]"
  | .pair first second => "[" ++ compact ascii first ++ "," ++ compact ascii second ++ "]"
  | .object fields => "\x7b" ++ compactFields ascii fields ++ "\x7d"
  | other => scalar ascii other

def compactItems (ascii : Bool) : List Datum → String
  | [] => ""
  | [item] => compact ascii item
  | item :: items => compact ascii item ++ "," ++ compactItems ascii items

/-- The fields of an object without white space. -/
def compactFields (ascii : Bool) : List (Datum × Datum) → String
  | [] => ""
  | [(key, value)] => string ascii (keyText key) ++ ":" ++ compact ascii value
  | (key, value) :: fields =>
    string ascii (keyText key) ++ ":" ++ compact ascii value ++ ","
      ++ compactFields ascii fields

end

/-- A line break and the indentation of a depth, two spaces for each level. -/
def lineBreak (depth : Nat) : String :=
  String.ofList ('\n' :: List.replicate (2 * depth) ' ')

mutual

/-- A value with one item or field a line, in ASCII. -/
def indented (depth : Nat) : Datum → String
  | .list items =>
    if items.isEmpty then "[]"
    else "[" ++ indentedItems (depth + 1) items ++ lineBreak depth ++ "]"
  | .object fields =>
    if fields.isEmpty then "\x7b\x7d"
    else "\x7b" ++ indentedFields (depth + 1) fields ++ lineBreak depth ++ "\x7d"
  | other => compact true other

def indentedItems (depth : Nat) : List Datum → String
  | [] => ""
  | [item] => lineBreak depth ++ indented depth item
  | item :: items => lineBreak depth ++ indented depth item ++ "," ++ indentedItems depth items

/-- The fields of an object, each on a line of its own. -/
def indentedFields (depth : Nat) : List (Datum × Datum) → String
  | [] => ""
  | [(key, value)] =>
    lineBreak depth ++ string true (keyText key) ++ ": " ++ indented depth value
  | (key, value) :: fields =>
    lineBreak depth ++ string true (keyText key) ++ ": " ++ indented depth value ++ ","
      ++ indentedFields depth fields

end

end InfraPins.Json
