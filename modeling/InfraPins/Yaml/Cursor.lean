import InfraPins.Text.Search

namespace InfraPins.Yaml

/-- Why a text cannot be read as YAML. -/
inductive Fault where
  /-- The text is no YAML, or uses something that is not supported. -/
  | malformed
  /-- A scalar under a tag names no value of the tag's type, as the message says. -/
  | noValue (message : String)
  /-- A scalar under the tag of truth values is none of them. -/
  | noTruthValue (text : String)
  /-- A scalar under the tag of times is not written as one. -/
  | noTime
  deriving DecidableEq, Repr

/-- A character that ends a line. -/
def isBreak (c : Char) : Bool :=
  c == '\n' || c == '\u0085' || c == '\u2028' || c == '\u2029'

/-- A space or the end of a line. -/
def isGap (c : Char) : Bool :=
  c == ' ' || isBreak c

/-- A space, a tab or the end of a line. -/
def isWide (c : Char) : Bool :=
  c == '\t' || isGap c

/-- The mark that may stand at the start of a text. -/
def byteOrderMark : Char := '\uFEFF'

/-- The rest of a text and where it starts. -/
structure Cursor where
  rest : List Char
  index : Nat := 0
  line : Nat := 0
  column : Nat := 0
  deriving DecidableEq, Repr

namespace Cursor

def next? (cursor : Cursor) : Option Char :=
  cursor.rest.head?

/-- The character after the next one. -/
def second? (cursor : Cursor) : Option Char :=
  cursor.rest[1]?

/-- Whether the next character is a given one. -/
def isAt (cursor : Cursor) (c : Char) : Bool :=
  cursor.next? == some c

/-- Whether the next character passes a test, or there is none. -/
def atEndOr (cursor : Cursor) (test : Char → Bool) : Bool :=
  cursor.next?.all test

/-- The cursor behind the next character. -/
def step (cursor : Cursor) : Cursor :=
  match cursor.rest with
  | [] => cursor
  | c :: rest =>
    if isBreak c then ⟨rest, cursor.index + 1, cursor.line + 1, 0⟩
    else if c == byteOrderMark then ⟨rest, cursor.index + 1, cursor.line, cursor.column⟩
    else ⟨rest, cursor.index + 1, cursor.line, cursor.column + 1⟩

/-- The cursor behind some characters. -/
def steps : Nat → Cursor → Cursor
  | 0, cursor => cursor
  | count + 1, cursor => steps count cursor.step

/-- The characters that pass a test, and the cursor behind them. -/
def takeWhile (cursor : Cursor) (test : Char → Bool) : List Char × Cursor :=
  let taken := cursor.rest.takeWhile test
  (taken, cursor.steps taken.length)

/-- The cursor behind the characters that pass a test. -/
def skipWhile (cursor : Cursor) (test : Char → Bool) : Cursor :=
  (cursor.takeWhile test).2

def skipSpaces (cursor : Cursor) : Cursor :=
  cursor.skipWhile (· == ' ')

/-- The cursor behind a comment, if one starts here. -/
def skipComment (cursor : Cursor) : Cursor :=
  if cursor.isAt '#' then cursor.skipWhile fun c => !isBreak c else cursor

/-- The line break here and the cursor behind it, if there is one. A next-line character counts as a
line feed. -/
def lineBreak? (cursor : Cursor) : Option (Char × Cursor) :=
  match cursor.next? with
  | some c =>
    if isBreak c then some (if c == '\u0085' then '\n' else c, cursor.step) else none
  | none => none

/-- Whether a line that parts documents starts here: three times the same character, and then a gap.
-/
def atSeparator (cursor : Cursor) (c : Char) : Bool :=
  match cursor.rest with
  | first :: second :: third :: rest =>
    first == c && second == c && third == c && rest.head?.all isWide
  | _ => false

/-- Whether a line that parts documents starts here. -/
def atDocumentEdge (cursor : Cursor) : Bool :=
  cursor.atSeparator '-' || cursor.atSeparator '.'

end Cursor

end InfraPins.Yaml
