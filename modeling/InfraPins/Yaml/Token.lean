import InfraPins.Text.Utf8
import InfraPins.Yaml.Scalar

/-! Tokens of a YAML text. Indentation shows as tokens that start and end blocks. A key without a
mark is known for one only when its colon is met, so its mark is put in before what has been read
since. -/

namespace InfraPins.Yaml

inductive Directive where
  | version (major : Nat)
  | tag (handle opening : String)
  | unknown
  deriving DecidableEq, Repr

/-- A token. A tag comes with its handle, if it has one. -/
inductive Token where
  | directive (directive : Directive)
  | documentStart
  | documentEnd
  | blockSequence
  | blockMapping
  | blockEnd
  | flowSequence
  | flowSequenceEnd
  | flowMapping
  | flowMappingEnd
  | entry
  | flowEntry
  | key
  | value
  | alias (name : String)
  | anchor (name : String)
  | tag (handle : Option String) (suffix : String)
  | scalar (text : String) (plain : Bool)
  deriving DecidableEq, Repr

namespace Token

open Scalar

def isNameChar (c : Char) : Bool :=
  c.isAlphanum || c == '-' || c == '_'

/-- A character of a tag's address. -/
def isUriChar (c : Char) : Bool :=
  c.isAlphanum || "-;/?:@&=+$,_.!~*'()[]%".toList.contains c

/-- The name of an anchor, behind its mark. -/
def anchorName (cursor : Cursor) : Except Fault (Read String) :=
  let (name, cursor) := cursor.takeWhile isNameChar
  let ends (c : Char) : Bool := isWide c || ['?', ':', ',', ']', '}', '%', '@', '`'].contains c
  if name.isEmpty || !cursor.atEndOr ends then .error .malformed
  else .ok (String.ofList name, cursor)

/-- The octets that hexadecimal escapes write. -/
def escapedOctets : Nat → Cursor → Except Fault (Read (List UInt8))
  | 0, cursor => .ok ([], cursor)
  | steps + 1, cursor =>
    if cursor.isAt '%' then
      match (cursor.rest.drop 1).take 2 with
      | [high, low] =>
        match hexNumber? [high, low] with
        | some octet => do
          let (more, cursor) ← escapedOctets steps (cursor.steps 3)
          return (UInt8.ofNat octet :: more, cursor)
        | none => .error .malformed
      | _ => .error .malformed
    else .ok ([], cursor)

/-- The characters of an address. -/
def uriChars : Nat → Cursor → Except Fault (Read (List Char))
  | 0, cursor => .ok ([], cursor)
  | steps + 1, cursor =>
    match cursor.next? with
    | none => .ok ([], cursor)
    | some c =>
      if c == '%' then do
        let (octets, cursor) ← escapedOctets (cursor.rest.length + 1) cursor
        match Text.Utf8.decode octets with
        | .ok piece =>
          let (more, cursor) ← uriChars steps cursor
          return (piece ++ more, cursor)
        | .error _ => .error .malformed
      else if isUriChar c then do
        let (more, cursor) ← uriChars steps cursor.step
        return (c :: more, cursor)
      else .ok ([], cursor)

/-- An address; it may not be empty. -/
def uri (cursor : Cursor) : Except Fault (Read String) := do
  if cursor.next?.any isUriChar then
    let (text, after) ← uriChars (cursor.rest.length + 1) cursor
    return (String.ofList text, after)
  else .error .malformed

/-- The handle of a tag: a name between exclamation marks, or a single exclamation mark before a
space. -/
def tagHandle (cursor : Cursor) : Except Fault (Read String) :=
  if !cursor.isAt '!' then .error .malformed
  else if cursor.second? == some ' ' then .ok ("!", cursor.step)
  else
    let (name, cursor) := cursor.step.takeWhile isNameChar
    if cursor.isAt '!' then .ok (String.ofList ('!' :: name ++ ['!']), cursor.step)
    else .error .malformed

/-- Whether a word has an exclamation mark behind its first character. -/
def hasHandle (cursor : Cursor) : Bool :=
  ((cursor.rest.drop 1).takeWhile fun c => !isGap c).contains '!'

/-- A tag, at its exclamation mark. -/
def tagHere (cursor : Cursor) : Except Fault (Read Token) := do
  let (token, after) ←
    match cursor.second? with
    | some '<' => do
      let (address, cursor) ← uri (cursor.steps 2)
      if cursor.isAt '>' then pure (tag none address, cursor.step) else throw .malformed
    | other =>
      if other.all isWide then pure (tag none "!", cursor.step)
      else do
        let (handle, cursor) ← if hasHandle cursor then tagHandle cursor
          else pure ("!", cursor.step)
        let (suffix, cursor) ← uri cursor
        pure (tag (some handle) suffix, cursor)
  if after.atEndOr isGap then return (token, after) else throw .malformed

def versionNumber (cursor : Cursor) : Except Fault (Read Nat) :=
  let (digits, cursor) := cursor.takeWhile Char.isDigit
  if digits.isEmpty then .error .malformed
  else .ok (Text.decimalNumber digits, cursor)

/-- What a directive says, behind its name. -/
def directiveValue (name : String) (cursor : Cursor) : Except Fault (Read Directive) := do
  match name with
  | "YAML" =>
    let (major, cursor) ← versionNumber cursor.skipSpaces
    if cursor.isAt '.' then
      let (_, cursor) ← versionNumber cursor.step
      if cursor.atEndOr isGap then return (.version major, cursor) else throw .malformed
    else throw .malformed
  | "TAG" =>
    let (handle, cursor) ← tagHandle cursor.skipSpaces
    if cursor.isAt ' ' then
      let (opening, cursor) ← uri cursor.skipSpaces
      if cursor.atEndOr isGap then return (.tag handle opening, cursor) else throw .malformed
    else throw .malformed
  | _ => return (.unknown, cursor.skipWhile fun c => !isBreak c)

def directiveHere (cursor : Cursor) : Except Fault (Read Token) := do
  let (name, cursor) := cursor.step.takeWhile isNameChar
  if name.isEmpty || !cursor.atEndOr isGap then throw .malformed
  else
    let (said, cursor) ← directiveValue (String.ofList name) cursor
    return (directive said, ← restOfLine cursor)

end Token

/-- A place at which a key without a mark may have started: how many tokens come before it, and
whether only a key may stand there. -/
structure KeyPlace where
  before : Nat
  required : Bool
  index : Nat
  line : Nat
  column : Nat
  deriving DecidableEq, Repr

/-- The longest key without a mark. -/
def maxKeyLength : Nat := 1024

/-- The state of reading tokens: how many brackets are open, the indentation of the open blocks
counted from one, innermost first, whether a key without a mark may start, the places where one may
have started by the number of open brackets, and the tokens so far, last first. -/
structure Scan where
  cursor : Cursor
  flow : Nat := 0
  margins : List Nat := []
  keyAllowed : Bool := true
  keys : List (Nat × KeyPlace) := []
  tokens : List Token := []

namespace Scan

/-- The indentation of the innermost block counted from one, zero outside all blocks. -/
def margin (scan : Scan) : Nat :=
  scan.margins.head?.getD 0

/-- Puts a token behind the others. -/
def push (token : Token) (scan : Scan) : Scan :=
  { scan with tokens := token :: scan.tokens }

/-- Puts a token in so that a number of others come before it. -/
def pushAfter (before : Nat) (token : Token) (scan : Scan) : Scan :=
  let behind := scan.tokens.length - before
  { scan with tokens := scan.tokens.take behind ++ token :: scan.tokens.drop behind }

/-- Whether a key that may have started at a place can no longer be one. -/
def isStale (scan : Scan) (place : KeyPlace) : Bool :=
  place.line ≠ scan.cursor.line || maxKeyLength < scan.cursor.index - place.index

/-- Gives up the places where a key can no longer have started. -/
def dropStale (scan : Scan) : Except Fault Scan :=
  if scan.keys.any fun entry => scan.isStale entry.2 && entry.2.required then .error .malformed
  else .ok { scan with keys := scan.keys.filter fun entry => !scan.isStale entry.2 }

/-- Gives up the place within the open brackets where a key may have started. -/
def forgetKey (scan : Scan) : Except Fault Scan :=
  match scan.keys.lookup scan.flow with
  | none => .ok scan
  | some place =>
    if place.required then .error .malformed
    else .ok { scan with keys := scan.keys.filter fun entry => entry.1 ≠ scan.flow }

/-- Remembers that a key may start here. -/
def rememberKey (scan : Scan) : Except Fault Scan := do
  if scan.keyAllowed then
    let cursor := scan.cursor
    let required := scan.flow = 0 && scan.margin = cursor.column + 1
    let scan ← scan.forgetKey
    let place : KeyPlace :=
      ⟨scan.tokens.length, required, cursor.index, cursor.line, cursor.column⟩
    return { scan with keys := (scan.flow, place) :: scan.keys }
  else return scan

def endBlocks (margin : Nat) (tokens : List Token) : List Nat → List Nat × List Token
  | [] => ([], tokens)
  | innermost :: outer =>
    if margin < innermost then endBlocks margin (.blockEnd :: tokens) outer
    else (innermost :: outer, tokens)

/-- Ends the blocks that are indented more than a margin; inside brackets indentation has no say. -/
def unwind (margin : Nat) (scan : Scan) : Scan :=
  if scan.flow = 0 then
    let (margins, tokens) := endBlocks margin scan.tokens scan.margins
    { scan with margins, tokens }
  else scan

def startBlock (column before : Nat) (token : Token) (scan : Scan) : Scan :=
  if scan.flow = 0 ∧ scan.margin < column + 1 then
    let scan := scan.pushAfter before token
    { scan with margins := (column + 1) :: scan.margins }
  else scan

/-- The cursor at the next token, and whether a key may start there. -/
def toToken (flow : Bool) : Nat → Cursor → Bool → Cursor × Bool
  | 0, cursor, allowed => (cursor, allowed)
  | steps + 1, cursor, allowed =>
    let cursor := cursor.skipSpaces.skipComment
    match cursor.lineBreak? with
    | some (_, cursor) => toToken flow steps cursor (allowed || !flow)
    | none => (cursor, allowed)

/-- A directive, or a line that parts documents. -/
def edge (read : Except Fault (Token × Cursor)) (scan : Scan) : Except Fault Scan := do
  let scan ← (scan.unwind 0).forgetKey
  let (token, cursor) ← read
  return { scan.push token with keyAllowed := false, cursor }

def openBracket (token : Token) (scan : Scan) : Except Fault Scan := do
  let scan ← scan.rememberKey
  return { scan.push token with
    flow := scan.flow + 1, keyAllowed := true, cursor := scan.cursor.step }

def closeBracket (token : Token) (scan : Scan) : Except Fault Scan := do
  if scan.flow = 0 then throw .malformed
  else
    let scan ← scan.forgetKey
    return { scan.push token with
      flow := scan.flow - 1, keyAllowed := false, cursor := scan.cursor.step }

/-- A comma between brackets. -/
def comma (scan : Scan) : Except Fault Scan := do
  let scan ← scan.forgetKey
  return { scan.push .flowEntry with keyAllowed := true, cursor := scan.cursor.step }

def entryMark (scan : Scan) : Except Fault Scan := do
  if scan.flow = 0 && !scan.keyAllowed then throw .malformed
  else
    let scan ← (scan.startBlock scan.cursor.column scan.tokens.length .blockSequence).forgetKey
    return { scan.push .entry with keyAllowed := true, cursor := scan.cursor.step }

def keyMark (scan : Scan) : Except Fault Scan := do
  if scan.flow = 0 && !scan.keyAllowed then throw .malformed
  else
    let scan ← (scan.startBlock scan.cursor.column scan.tokens.length .blockMapping).forgetKey
    return { scan.push .key with keyAllowed := scan.flow = 0, cursor := scan.cursor.step }

/-- The mark of a value, which may show that a key has been read. -/
def valueMark (scan : Scan) : Except Fault Scan := do
  match scan.keys.lookup scan.flow with
  | some place =>
    let scan := { scan with keys := scan.keys.filter fun entry => entry.1 ≠ scan.flow }
    let scan := (scan.pushAfter place.before .key).startBlock place.column place.before .blockMapping
    return { scan.push .value with keyAllowed := false, cursor := scan.cursor.step }
  | none =>
    if scan.flow = 0 && !scan.keyAllowed then throw .malformed
    else
      let scan := scan.startBlock scan.cursor.column scan.tokens.length .blockMapping
      return { scan.push .value with keyAllowed := scan.flow = 0, cursor := scan.cursor.step }

/-- Something that may be a key, or the start of one. -/
def content (read : Cursor → Except Fault (Token × Cursor)) (scan : Scan) : Except Fault Scan := do
  let scan ← scan.rememberKey
  let (token, cursor) ← read scan.cursor
  return { scan.push token with keyAllowed := false, cursor }

def quotedScalar (quote : Char) : Scan → Except Fault Scan :=
  content fun cursor => do
    let (text, cursor) ← Scalar.quoted quote cursor
    return (.scalar (String.ofList text) false, cursor)

def blockScalar (fold : Bool) (scan : Scan) : Except Fault Scan := do
  let scan ← scan.forgetKey
  let (text, cursor) ← Scalar.block fold scan.margin scan.cursor
  return { scan.push (.scalar (String.ofList text) false) with keyAllowed := true, cursor }

def plainScalar (scan : Scan) : Except Fault Scan := do
  let scan ← scan.rememberKey
  let (text, cursor, broken) := Scalar.plain (scan.flow ≠ 0) scan.margin scan.cursor
  return { scan.push (.scalar (String.ofList text) true) with keyAllowed := broken, cursor }

/-- Whether a plain scalar starts with a character that another one follows. -/
def startsPlain (flow : Bool) (c : Char) (next : Option Char) : Bool :=
  !(isWide c || "-?:,[]\x7b\x7d#&*!|>'\"%@`".toList.contains c)
    || (!next.all isWide && (c == '-' || (!flow && (c == '?' || c == ':'))))

/-- The token that starts with a character. -/
def token (c : Char) (scan : Scan) : Except Fault Scan :=
  let cursor := scan.cursor
  let next := cursor.second?
  let flow : Bool := scan.flow ≠ 0
  let gapNext := next.all isWide
  if c == '%' && cursor.column == 0 then scan.edge (Token.directiveHere cursor)
  else if cursor.column == 0 && cursor.atSeparator '-' then
    scan.edge (.ok (.documentStart, cursor.steps 3))
  else if cursor.column == 0 && cursor.atSeparator '.' then
    scan.edge (.ok (.documentEnd, cursor.steps 3))
  else if c == '[' then scan.openBracket .flowSequence
  else if c == '{' then scan.openBracket .flowMapping
  else if c == ']' then scan.closeBracket .flowSequenceEnd
  else if c == '}' then scan.closeBracket .flowMappingEnd
  else if c == ',' then scan.comma
  else if c == '-' && gapNext then scan.entryMark
  else if c == '?' && (flow || gapNext) then scan.keyMark
  else if c == ':' && (flow || gapNext) then scan.valueMark
  else if c == '*' then scan.content fun cursor => do
    let (name, cursor) ← Token.anchorName cursor.step
    return (.alias name, cursor)
  else if c == '&' then scan.content fun cursor => do
    let (name, cursor) ← Token.anchorName cursor.step
    return (.anchor name, cursor)
  else if c == '!' then scan.content Token.tagHere
  else if c == '|' && !flow then scan.blockScalar false
  else if c == '>' && !flow then scan.blockScalar true
  else if c == '\'' || c == '"' then scan.quotedScalar c
  else if startsPlain flow c next then scan.plainScalar
  else .error .malformed

def all : Nat → Scan → Except Fault (List Token)
  | 0, _ => .error .malformed
  | steps + 1, scan => do
    let (cursor, keyAllowed) :=
      toToken (scan.flow ≠ 0) (scan.cursor.rest.length + 1) scan.cursor scan.keyAllowed
    let scan ← dropStale { scan with cursor, keyAllowed }
    let scan := scan.unwind (cursor.column + 1)
    match cursor.next? with
    | none =>
      let scan ← (scan.unwind 0).forgetKey
      return scan.tokens.reverse
    | some c => all steps (← scan.token c)

end Scan

/-- Whether a text may hold a character. -/
def isAllowed (c : Char) : Bool :=
  c == '\t' || c == '\n' || c == '\r' || (0x20 ≤ c.toNat && c.toNat ≤ 0x7E) || c == '\u0085'
    || (0xA0 ≤ c.toNat && c.toNat ≤ 0xFFFD) || 0x10000 ≤ c.toNat

/-- The tokens of a text whose lines end with line feeds. -/
def Token.ofText (text : List Char) : Except Fault (List Token) :=
  if text.all isAllowed then
    let start : Cursor := { rest := text }
    Scan.all (text.length + 1)
      { cursor := if start.isAt byteOrderMark then start.step else start }
  else .error .malformed

end InfraPins.Yaml
