import InfraPins.Text.Utf8

namespace InfraPins.Text.Percent

/-- The hexadecimal digit of a value below sixteen, in upper case. -/
def digit (value : Nat) : Char :=
  Char.ofNat (if value < 10 then 0x30 + value else 0x41 + (value - 10))

def encodeOctet (octet : UInt8) : List Char :=
  ['%', digit (octet.toNat / 16), digit (octet.toNat % 16)]

def encodeChar (c : Char) : List Char :=
  (String.utf8EncodeChar c).flatMap encodeOctet

/-- A text in which only the characters that pass a test stand for themselves. -/
def encode (keeps : Char → Bool) (text : List Char) : List Char :=
  text.flatMap fun c => if keeps c then [c] else encodeChar c

/-- A character that stands for itself everywhere. -/
def isUnreserved (c : Char) : Bool :=
  c.isAlphanum || c == '_' || c == '.' || c == '-' || c == '~'

def segment (text : String) : String :=
  String.ofList (encode isUnreserved text.toList)

/-- A text as several segments of a path: a slash divides them. -/
def segments (text : String) : String :=
  String.ofList (encode (fun c => isUnreserved c || c == '/') text.toList)

/-- A text as a name or a value of a query: a space becomes a plus sign. -/
def queryPart (text : String) : String :=
  String.ofList (text.toList.flatMap fun c =>
    if c == ' ' then ['+'] else if isUnreserved c then [c] else encodeChar c)

/-- A character that a path keeps: any printable one of ASCII but a few that would end the path or
the address. -/
def isPathChar (c : Char) : Bool :=
  0x20 < c.toNat && c.toNat < 0x7F
    && !(['"', '#', '<', '>', '?', '`', '{', '}'].contains c)

/-- A character that a query keeps. -/
def isQueryChar (c : Char) : Bool :=
  0x20 < c.toNat && c.toNat < 0x7F && !(['"', '#', '<', '>'].contains c)

end InfraPins.Text.Percent
