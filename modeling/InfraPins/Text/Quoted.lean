import InfraPins.Text.Printable

/-! Text quoted for a message: enclosed in single quotes, or in double quotes when that saves an
escape, with what cannot be printed written as a hexadecimal escape. -/

namespace InfraPins.Text

/-- The digit of a value below sixteen, in lower case. -/
def hexDigit (value : Nat) : Char :=
  Char.ofNat (if value < 10 then 0x30 + value else 0x61 + (value - 10))

/-- A number as exactly `width` hexadecimal digits; higher ones are dropped. -/
def hexPadded : Nat → Nat → List Char
  | 0, _ => []
  | width + 1, number => hexPadded width (number / 16) ++ [hexDigit (number % 16)]

/-- The hexadecimal escape of a code point: as short as its size allows. -/
def hexEscape (code : Nat) : List Char :=
  if code < 0x100 then '\\' :: 'x' :: hexPadded 2 code
  else if code < 0x10000 then '\\' :: 'u' :: hexPadded 4 code
  else '\\' :: 'U' :: hexPadded 8 code

/-- One character inside quotes of the given kind. -/
def quotedChar (quote c : Char) : List Char :=
  if c == quote || c == '\\' then ['\\', c]
  else if c == '\n' then ['\\', 'n']
  else if c == '\r' then ['\\', 'r']
  else if c == '\t' then ['\\', 't']
  else if isPrintable c then [c]
  else hexEscape c.toNat

/-- The quote that encloses a text: a double one exactly when the text holds single quotes and no
double quotes. -/
def quoteFor (text : List Char) : Char :=
  if text.contains '\'' && !text.contains '"' then '"' else '\''

/-- Text as it stands in a message, quoted and escaped. -/
def quoted (text : String) : String :=
  let characters := text.toList
  let quote := quoteFor characters
  String.ofList (quote :: characters.flatMap (quotedChar quote) ++ [quote])

end InfraPins.Text
