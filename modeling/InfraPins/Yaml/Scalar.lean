import InfraPins.Json.Reader
import InfraPins.Yaml.Cursor

/-! The text of scalars: plain ones, quoted ones, and blocks of lines. Line breaks inside a scalar
are folded: a single one becomes a space, and of several the first is dropped. -/

namespace InfraPins.Yaml.Scalar

abbrev Read (α : Type) := α × Cursor

/-- What line breaks fold to: the first of them, and those after it. -/
def folded (first : Char) (more : List Char) : List Char :=
  if first ≠ '\n' then first :: more
  else if more.isEmpty then [' ']
  else more

/-- Whether a plain scalar goes on with a character that another one follows. Inside brackets fewer
characters do. -/
def isPlain (flow : Bool) (c : Char) (next : Option Char) : Bool :=
  let ends (next : Char) : Bool :=
    isWide next || (flow && [',', '[', ']', '{', '}'].contains next)
  !(isWide c || (c == ':' && next.all ends) || (flow && [',', '?', '[', ']', '{', '}'].contains c))

/-- The characters of a plain scalar up to a gap. -/
def plainWord (flow : Bool) : List Char → List Char
  | [] => []
  | c :: rest => if isPlain flow c rest.head? then c :: plainWord flow rest else []

/-- The line breaks that follow, with the spaces between them skipped, and whether a line that parts
documents ends them. -/
def plainBreaks : Nat → Cursor → List Char × Cursor × Bool
  | 0, cursor => ([], cursor, false)
  | steps + 1, cursor =>
    let cursor := cursor.skipSpaces
    match cursor.lineBreak? with
    | none => ([], cursor, false)
    | some (c, cursor) =>
      if cursor.atDocumentEdge then ([c], cursor, true)
      else
        let (more, cursor, edge) := plainBreaks steps cursor
        (c :: more, cursor, edge)

/-- What a gap in a plain scalar folds to, the cursor behind the gap, and whether the gap holds a
line break. At the edge of a document a gap folds to nothing. -/
def plainGap (cursor : Cursor) : List Char × Cursor × Bool :=
  let (spaces, cursor) := cursor.takeWhile (· == ' ')
  match cursor.lineBreak? with
  | none => (spaces, cursor, false)
  | some (first, cursor) =>
    if cursor.atDocumentEdge then ([], cursor, true)
    else
      let (more, cursor, edge) := plainBreaks (cursor.rest.length + 1) cursor
      (if edge then [] else folded first more, cursor, true)

/-- The words of a plain scalar with the gaps between them. `pending` is the gap before the next
word; the answer says also whether the gap after the last word holds a line break. -/
def plainWords (flow : Bool) (margin : Nat) (pending : List Char) :
    Nat → Cursor → List Char × Cursor × Bool
  | 0, cursor => ([], cursor, false)
  | steps + 1, cursor =>
    let word := if cursor.isAt '#' then [] else plainWord flow cursor.rest
    if word.isEmpty then ([], cursor, false)
    else
      let (gap, cursor, broken) := plainGap (cursor.steps word.length)
      if gap.isEmpty || cursor.isAt '#' || (!flow && cursor.column < margin) then
        (pending ++ word, cursor, broken)
      else
        let (more, after, brokenLater) := plainWords flow margin gap steps cursor
        (pending ++ word ++ more, after, if more.isEmpty then broken else brokenLater)

/-- A plain scalar, the cursor behind it, and whether it ends with a line break behind it. -/
def plain (flow : Bool) (margin : Nat) (cursor : Cursor) : List Char × Cursor × Bool :=
  plainWords flow margin [] (cursor.rest.length + 1) cursor

def shortEscape? : Char → Option Char
  | '0' => some '\x00'
  | 'a' => some '\x07'
  | 'b' => some '\x08'
  | 't' => some '\t'
  | '\t' => some '\t'
  | 'n' => some '\n'
  | 'v' => some '\x0b'
  | 'f' => some '\x0c'
  | 'r' => some '\r'
  | 'e' => some '\x1b'
  | ' ' => some ' '
  | '"' => some '"'
  | '\\' => some '\\'
  | '/' => some '/'
  | 'N' => some '\u0085'
  | '_' => some '\u00a0'
  | 'L' => some '\u2028'
  | 'P' => some '\u2029'
  | _ => none

/-- The number of hexadecimal digits of a long escape. -/
def escapeLength? : Char → Option Nat
  | 'x' => some 2
  | 'u' => some 4
  | 'U' => some 8
  | _ => none

/-- The number that hexadecimal digits write. -/
def hexNumber? (digits : List Char) : Option Nat :=
  digits.foldl (fun number digit => do
    return (← number) * 16 + (← Json.hexValue? digit)) (some 0)

def character (code : Nat) : Except Fault Char :=
  if 0x10FFFF < code then .error (.noValue "chr() arg not in range(0x110000)")
  else if 0xD800 ≤ code ∧ code < 0xE000 then .error .malformed
  else .ok (Char.ofNat code)

/-- The line breaks that follow in a quoted scalar, with the spaces and tabs between them skipped.
No line may part documents. -/
def quotedBreaks : Nat → Cursor → Except Fault (Read (List Char))
  | 0, cursor => .ok ([], cursor)
  | steps + 1, cursor =>
    if cursor.atDocumentEdge then .error .malformed
    else
      let cursor := cursor.skipWhile fun c => c == ' ' || c == '\t'
      match cursor.lineBreak? with
      | none => .ok ([], cursor)
      | some (c, cursor) => do
        let (more, cursor) ← quotedBreaks steps cursor
        return (c :: more, cursor)

def quotedGap (cursor : Cursor) : Except Fault (Read (List Char)) :=
  let (blank, cursor) := cursor.takeWhile fun c => c == ' ' || c == '\t'
  match cursor.next?, cursor.lineBreak? with
  | none, _ => .error .malformed
  | _, none => .ok (blank, cursor)
  | _, some (first, cursor) => do
    let (more, cursor) ← quotedBreaks (cursor.rest.length + 1) cursor
    return (folded first more, cursor)

/-- What an escape stands for; the cursor is behind the backslash. An escaped line break stands for
the breaks after it. -/
def escape (cursor : Cursor) : Except Fault (Read (List Char)) :=
  match cursor.next? with
  | none => .error .malformed
  | some c =>
    match shortEscape? c, escapeLength? c, cursor.lineBreak? with
    | some c, _, _ => .ok ([c], cursor.step)
    | none, some length, _ =>
      let digits := cursor.step.rest.take length
      if digits.length < length then .error .malformed
      else match hexNumber? digits with
        | none => .error .malformed
        | some code => do
          return ([← character code], cursor.step.steps length)
    | none, none, some (_, cursor) => quotedBreaks (cursor.rest.length + 1) cursor
    | none, none, none => .error .malformed

/-- A quoted scalar up to its closing quote; the cursor is behind the opening one. -/
def quotedRest (quote : Char) : Nat → Cursor → Except Fault (Read (List Char))
  | 0, _ => .error .malformed
  | steps + 1, cursor => do
    match cursor.rest with
    | [] => .error .malformed
    | c :: rest =>
      let (piece, cursor) ←
        if c == quote then
          if quote == '\'' && rest.head? == some '\'' then pure (some ['\''], cursor.steps 2)
          else pure (none, cursor.step)
        else if c == '\\' && quote == '"' then do
          let (piece, cursor) ← escape cursor.step
          pure (some piece, cursor)
        else if isWide c then do
          let (piece, cursor) ← quotedGap cursor
          pure (some piece, cursor)
        else pure (some [c], cursor.step)
      match piece with
      | none => return ([], cursor)
      | some piece =>
        let (more, cursor) ← quotedRest quote steps cursor
        return (piece ++ more, cursor)

def quoted (quote : Char) (cursor : Cursor) : Except Fault (Read (List Char)) :=
  quotedRest quote (cursor.rest.length + 1) cursor.step

/-- What happens to the line breaks at the end of a block: one stays, none does, or all do. -/
inductive Chomping where
  | clip
  | strip
  | keep
  deriving DecidableEq, Repr

/-- The chomping that a character asks for. -/
def Chomping.ofChar? : Char → Option Chomping
  | '+' => some .keep
  | '-' => some .strip
  | _ => none

/-- The value of a digit from one to nine. -/
def indentDigit? (c : Char) : Option Nat :=
  if '1' ≤ c ∧ c ≤ '9' then some (c.toNat - '0'.toNat) else none

/-- The chomping and the indentation that the head of a block asks for, in either order. -/
def blockHead (cursor : Cursor) : Except Fault (Read (Chomping × Option Nat)) := do
  let chomping (cursor : Cursor) : Read (Option Chomping) :=
    match cursor.next?.bind Chomping.ofChar? with
    | some chomping => (some chomping, cursor.step)
    | none => (none, cursor)
  let indent (cursor : Cursor) : Read (Option Nat) :=
    match cursor.next?.bind indentDigit? with
    | some digit => (some digit, cursor.step)
    | none => (none, cursor)
  let (first, afterFirst) := chomping cursor
  let (wanted, afterIndent) := indent afterFirst
  let (last, after) := if first.isSome then (first, afterIndent) else chomping afterIndent
  if after.atEndOr isGap then return ((last.getD .clip, wanted), after) else .error .malformed

/-- The cursor behind a line on which only spaces and a comment are left. -/
def restOfLine (cursor : Cursor) : Except Fault Cursor :=
  let cursor := cursor.skipSpaces.skipComment
  match cursor.next?, cursor.lineBreak? with
  | none, _ => .ok cursor
  | some _, some (_, cursor) => .ok cursor
  | some _, none => .error .malformed

/-- The empty lines at the start of a block, and the widest indentation among them and the first
line that is not empty. -/
def leadingBreaks (widest : Nat) : Nat → Cursor → List Char × Nat × Cursor
  | 0, cursor => ([], widest, cursor)
  | steps + 1, cursor =>
    let cursor := cursor.skipSpaces
    let widest := max widest cursor.column
    match cursor.lineBreak? with
    | none => ([], widest, cursor)
    | some (c, cursor) =>
      let (more, widest, cursor) := leadingBreaks widest steps cursor
      (c :: more, widest, cursor)

/-- The cursor behind spaces, but not beyond a column. -/
def toColumn (indent : Nat) (cursor : Cursor) : Cursor :=
  let spaces := (cursor.rest.takeWhile (· == ' ')).length
  cursor.steps (min spaces (indent - cursor.column))

/-- The empty lines in a block of an indentation. -/
def blockBreaks (indent : Nat) : Nat → Cursor → Read (List Char)
  | 0, cursor => ([], cursor)
  | steps + 1, cursor =>
    let cursor := toColumn indent cursor
    match cursor.lineBreak? with
    | none => ([], cursor)
    | some (c, cursor) =>
      let (more, cursor) := blockBreaks indent steps cursor
      (c :: more, cursor)

/-- What a block holds: its text, the line break after its last line, and the empty lines behind
that. -/
structure Block where
  text : List Char
  lastBreak : List Char
  emptyLines : List Char

def blockLines (fold : Bool) (indent : Nat) (lastBreak emptyLines : List Char) :
    Nat → Cursor → Read Block
  | 0, cursor => (⟨[], lastBreak, emptyLines⟩, cursor)
  | steps + 1, cursor =>
    if cursor.column = indent ∧ !cursor.rest.isEmpty then
      let isBlank (c : Char) : Bool := c == ' ' || c == '\t'
      let startsBlank := cursor.next?.any isBlank
      let (line, cursor) := cursor.takeWhile fun c => !isBreak c
      let (ending, cursor) : List Char × Cursor := match cursor.lineBreak? with
        | some (c, cursor) => ([c], cursor)
        | none => ([], cursor)
      let (empty, cursor) := blockBreaks indent (cursor.rest.length + 1) cursor
      let goesOn : Bool := cursor.column = indent && !cursor.rest.isEmpty
      let joint :=
        if !goesOn then []
        else if fold && ending == ['\n'] && !startsBlank && !cursor.next?.any isBlank then
          if empty.isEmpty then [' '] else []
        else ending
      let (block, cursor) := blockLines fold indent ending empty steps cursor
      ({ block with text := emptyLines ++ line ++ joint ++ block.text }, cursor)
    else (⟨[], lastBreak, emptyLines⟩, cursor)

/-- A block of lines, at its mark. The margin is the least indentation that its lines may have. -/
def block (fold : Bool) (margin : Nat) (cursor : Cursor) : Except Fault (Read (List Char)) := do
  let ((chomping, wanted), cursor) ← blockHead cursor.step
  let cursor ← restOfLine cursor
  let least := max 1 margin
  let (indent, empty, cursor) := match wanted with
    | some extra =>
      let indent := least + extra - 1
      let (empty, cursor) := blockBreaks indent (cursor.rest.length + 1) cursor
      (indent, empty, cursor)
    | none =>
      let (empty, widest, cursor) := leadingBreaks 0 (cursor.rest.length + 1) cursor
      (max least widest, empty, cursor)
  let (block, cursor) := blockLines fold indent [] empty (cursor.rest.length + 1) cursor
  let ending := match chomping with
    | .clip => block.lastBreak
    | .strip => []
    | .keep => block.lastBreak ++ block.emptyLines
  return (block.text ++ ending, cursor)

end InfraPins.Yaml.Scalar
