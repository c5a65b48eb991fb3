import InfraPins.Text.Blank
import InfraPins.Text.Search

/-! Tokens of the configuration language. Which words are keywords depends on what may follow, so
reading a token takes an expectation. Line ends and comments are tokens too; the parser hears only
whether any stand before the next other token. A line end directly before a binary operator or a
question mark is part of that operator, which lets an expression continue on the next line. -/

namespace InfraPins.Hcl

open Text

/-- Words with a meaning in expressions, templates or both. -/
inductive Keyword where
  | inWord
  | forWord
  | ifWord
  | forEach
  | elseWord
  | endIf
  | endFor
  deriving DecidableEq, Repr

def Keyword.text : Keyword → String
  | .inWord => "in"
  | .forWord => "for"
  | .ifWord => "if"
  | .forEach => "for_each"
  | .elseWord => "else"
  | .endIf => "endif"
  | .endFor => "endfor"

/-- Words that stand for a value. -/
inductive Constant where
  | null
  | yes
  | no
  deriving DecidableEq, Repr

def Constant.text : Constant → String
  | .null => "null"
  | .yes => "true"
  | .no => "false"

/-- Operators and punctuation. -/
inductive Symbol where
  | equal
  | notEqual
  | less
  | greater
  | atMost
  | atLeast
  | minus
  | times
  | over
  | remainder
  | both
  | either
  | plus
  | negation
  | question
  | openGroup
  | closeGroup
  | openBrace
  | closeBrace
  | openList
  | closeList
  | comma
  | dot
  | assign
  | colon
  | quote
  | strip
  | eachMember
  | each
  | arrow
  | ellipsis
  | colons
  deriving DecidableEq, Repr

def Symbol.text : Symbol → String
  | .equal => "=="
  | .notEqual => "!="
  | .less => "<"
  | .greater => ">"
  | .atMost => "<="
  | .atLeast => ">="
  | .minus => "-"
  | .times => "*"
  | .over => "/"
  | .remainder => "%"
  | .both => "&&"
  | .either => "||"
  | .plus => "+"
  | .negation => "!"
  | .question => "?"
  | .openGroup => "("
  | .closeGroup => ")"
  | .openBrace => "\x7b"
  | .closeBrace => "\x7d"
  | .openList => "["
  | .closeList => "]"
  | .comma => ","
  | .dot => "."
  | .assign => "="
  | .colon => ":"
  | .quote => "\""
  | .strip => "~"
  | .eachMember => ".*"
  | .each => "[*]"
  | .arrow => "=>"
  | .ellipsis => "..."
  | .colons => "::"

/-- The symbols, a longer one before those that it starts with. -/
def Symbol.all : List Symbol :=
  [.ellipsis, .each, .equal, .notEqual, .atMost, .atLeast, .both, .either, .eachMember, .arrow,
    .colons, .less, .greater, .minus, .times, .over, .remainder, .plus, .negation, .question,
    .openGroup, .closeGroup, .openBrace, .closeBrace, .openList, .closeList, .comma, .dot, .assign,
    .colon, .quote, .strip]

/-- How closely an operator between two operands binds them; none for any other symbol. -/
def Symbol.binding? : Symbol → Option Nat
  | .either => some 1
  | .both => some 2
  | .equal | .notEqual => some 3
  | .less | .greater | .atMost | .atLeast => some 4
  | .plus | .minus => some 5
  | .times | .over | .remainder => some 6
  | _ => none

/-- The binding of the operators that bind most closely. -/
def Symbol.closestBinding : Nat := 6

/-- Symbols that take in a line end directly before them. A minus does not, since it can also start
an expression. -/
def Symbol.joinsLines (symbol : Symbol) : Bool :=
  symbol == .question || (symbol.binding?.isSome && symbol != .minus)

/-- A token. Numbers, heredocs and escaped texts keep their spelling. -/
inductive Token where
  | name (text : String)
  | keyword (word : Keyword)
  | constant (word : Constant)
  | integer (text : List Char)
  | decimal (text : List Char)
  | heredoc (text : List Char)
  | escapedText (text : List Char)
  | symbol (symbol : Symbol)
  | finish
  deriving DecidableEq, Repr

/-- What the next token may be, as far as that decides how a text is cut into tokens. -/
inductive Expectation where
  /-- Every word with a meaning counts: between statements, before a field, after an operand. -/
  | anything
  /-- An expression: keywords are plain names. -/
  | operand
  /-- What opens a list: an expression or `for`. -/
  | listStart
  /-- What follows a dot: a name, a constant or an index. -/
  | member
  /-- A name that a `for` or a namespace introduces: every word is a plain name. -/
  | binder
  deriving DecidableEq, Repr

def keyword? (expected : Expectation) (word : String) : Option Keyword :=
  match expected with
  | .anything => [Keyword.inWord, .forWord, .ifWord, .forEach, .elseWord, .endIf, .endFor].find?
    fun keyword => keyword.text == word
  | .listStart => if word == Keyword.forWord.text then some .forWord else none
  | _ => none

def constant? (expected : Expectation) (word : String) : Option Constant :=
  match expected with
  | .binder => none
  | _ => [Constant.null, .yes, .no].find? fun constant => constant.text == word

def startsName (c : Char) : Bool :=
  c.isAlpha || c == '_'

/-- A character inside a name. -/
def continuesName (c : Char) : Bool :=
  c.isAlphanum || c == '_' || c == '-'

def wordToken (expected : Expectation) (word : String) : Token :=
  match keyword? expected word with
  | some keyword => .keyword keyword
  | none => match constant? expected word with
    | some constant => .constant constant
    | none => .name word

/-- An integer: digits, or a minus and at least two digits. A minus before a single digit is an
operator. -/
def integer? (text : List Char) : Option (List Char × List Char) :=
  match text with
  | '-' :: first :: rest =>
    let (digits, rest) := spanWhile Char.isDigit rest
    if first.isDigit && !digits.isEmpty then some ('-' :: first :: digits, rest) else none
  | _ =>
    let (digits, rest) := spanWhile Char.isDigit text
    if digits.isEmpty then none else some (digits, rest)

/-- Digits that each have a minus before them. -/
def negatedDigits : List Char → List Char × List Char
  | '-' :: digit :: rest =>
    if digit.isDigit then
      let (more, after) := negatedDigits rest
      ('-' :: digit :: more, after)
    else ([], '-' :: digit :: rest)
  | text => ([], text)

def exponent? : List Char → Option (List Char × List Char)
  | mark :: rest =>
    if mark == 'e' || mark == 'E' then
      let (sign, rest) := match rest with
        | '+' :: rest => (['+'], rest)
        | '-' :: rest => (['-'], rest)
        | _ => ([], rest)
      let (digits, rest) := spanWhile Char.isDigit rest
      if digits.isEmpty then none else some (mark :: sign ++ digits, rest)
    else none
  | [] => none

/-- What makes a decimal of the digits before it: a fraction, an exponent, or both. -/
def decimalTail? (text : List Char) : Option (List Char × List Char) :=
  let fraction? : Option (List Char × List Char) := match text with
    | '.' :: rest =>
      let (digits, rest) := spanWhile Char.isDigit rest
      if digits.isEmpty then none else some ('.' :: digits, rest)
    | _ => none
  match fraction? with
  | some (fraction, rest) => match exponent? rest with
    | some (exponent, rest) => some (fraction ++ exponent, rest)
    | none => some (fraction, rest)
  | none => exponent? text

/-- A decimal number: digits with a fraction or an exponent. -/
def decimal? (text : List Char) : Option (List Char × List Char) :=
  let tailOf (start : List Char × List Char) : Option (List Char × List Char) :=
    (decimalTail? start.2).map fun (tail, rest) => (start.1 ++ tail, rest)
  match (integer? text).bind tailOf with
  | some found => some found
  | none =>
    let negated := negatedDigits text
    if negated.1.isEmpty then none else tailOf negated

/-- A number. What follows a dot is an index and has no fraction. -/
def number? (expected : Expectation) (text : List Char) : Option (Token × List Char) :=
  let decimal := if expected == .member then none else decimal? text
  match decimal with
  | some (digits, rest) => some (.decimal digits, rest)
  | none => (integer? text).map fun (digits, rest) => (.integer digits, rest)

def afterLineEnd? : List Char → Option (List Char)
  | '\n' :: rest => some rest
  | '\r' :: '\n' :: rest => some rest
  | _ => none

/-- The closing line of a heredoc at the start of a text: white space, the marker and a line end. -/
def heredocClose? (marker text : List Char) : Option (List Char) :=
  (after? marker (trimStart text)).bind afterLineEnd?

/-- What stands after a heredoc whose body starts here. The first closing line ends it. -/
def heredocEnd? (marker : List Char) : (lineStart : Bool) → List Char → Option (List Char)
  | true, [] => heredocClose? marker []
  | false, [] => none
  | true, c :: rest => match heredocClose? marker (c :: rest) with
    | some after => some after
    | none => heredocEnd? marker (c == '\n') rest
  | false, c :: rest => heredocEnd? marker (c == '\n') rest

/-- A heredoc: two less-than signs, a hyphen or not, a marker and the lines up to the one that
repeats the marker. -/
def heredoc? (text : List Char) : Option (Token × List Char) := do
  let rest ← after? ['<', '<'] text
  let rest := (after? ['-'] rest).getD rest
  let (marker, rest) := spanWhile (fun c => continuesName c || c == '.') rest
  let first ← marker.head?
  if first.isAlpha then
    let body ← afterLineEnd? rest
    let after ← heredocEnd? marker true body
    return (.heredoc (text.take (text.length - after.length)), after)
  else none

/-- The end of a text between escaped quotes that reaches furthest: each escaped quote on the way
may be the last. -/
def escapedEnd? : List Char → Option (List Char)
  | [] => none
  | '"' :: _ => none
  | '\\' :: c :: rest =>
    if c == '\n' then none
    else match escapedEnd? rest with
      | some after => some after
      | none => if c == '"' then some rest else none
  | '\\' :: [] => none
  | _ :: rest => escapedEnd? rest

/-- A text between escaped quotes, as it stands inside a template directive. -/
def escapedText? (text : List Char) : Option (Token × List Char) := do
  let body ← after? ['\\', '"'] text
  let after ← escapedEnd? body
  return (.escapedText (text.take (text.length - after.length)), after)

/-- A symbol: the longest that fits. -/
def symbol? (text : List Char) : Option (Token × List Char) :=
  Symbol.all.findSome? fun symbol =>
    (after? symbol.text.toList text).map (Token.symbol symbol, ·)

/-- A token at the start of a text, which no white space precedes. -/
def token? (expected : Expectation) (text : List Char) : Option (Token × List Char) :=
  match text with
  | [] => some (.finish, [])
  | c :: rest =>
    if startsName c then
      let (more, after) := spanWhile continuesName rest
      some (wordToken expected (String.ofList (c :: more)), after)
    else match heredoc? text with
      | some found => some found
      | none => match escapedText? text with
        | some found => some found
        | none => match number? expected text with
          | some found => some found
          | none => symbol? text

/-- White space between tokens; line ends are no part of it. -/
def isGap (c : Char) : Bool :=
  c == ' ' || c == '\t' || c == '\r'

/-- A block comment after its opening: the text up to its end, and what follows it. -/
def commentBody? : List Char → Option (List Char × List Char)
  | '*' :: '/' :: rest => some (['*', '/'], rest)
  | c :: rest => (commentBody? rest).map fun (body, rest) => (c :: body, rest)
  | [] => none

/-- A line comment after its opening: the text up to its line end, and what follows it. -/
def lineBody? (text : List Char) : Option (List Char × List Char) :=
  (cutAt? '\n' text).map fun (body, rest) => (body ++ ['\n'], rest)

/-- A line end or comment at the start of a text, and what follows it. A line end takes in the
spaces and tabs after it, a comment that a line end closes takes in the line end. -/
def break? : List Char → Option (List Char × List Char)
  | '\n' :: rest =>
    let (indent, rest) := spanWhile (fun c => c == ' ' || c == '\t') rest
    some ('\n' :: indent, rest)
  | '#' :: rest => (lineBody? rest).map fun (body, rest) => ('#' :: body, rest)
  | '/' :: '/' :: rest => (lineBody? rest).map fun (body, rest) => ('/' :: '/' :: body, rest)
  | '/' :: '*' :: rest => (commentBody? rest).map fun (body, rest) => ('/' :: '*' :: body, rest)
  | _ => none

theorem commentBody?_length {text body rest : List Char}
    (found : commentBody? text = some (body, rest)) : rest.length < text.length := by
  induction text generalizing body with
  | nil => simp [commentBody?] at found
  | cons c text ih =>
    unfold commentBody? at found
    split at found
    · rename_i same
      simp only [List.cons.injEq] at same
      simp only [Option.some.injEq, Prod.mk.injEq] at found
      rw [← found.2, same.2]
      simp only [List.length_cons]
      omega
    · rename_i same
      simp only [List.cons.injEq] at same
      obtain ⟨⟨inner, after⟩, earlier, same'⟩ := Option.map_eq_some_iff.mp found
      simp only [Prod.mk.injEq] at same'
      have shorter := ih (same'.2 ▸ same.2 ▸ earlier)
      simp only [List.length_cons]
      omega
    · simp at found

theorem lineBody?_length {text body rest : List Char}
    (found : lineBody? text = some (body, rest)) : rest.length < text.length := by
  obtain ⟨⟨inner, after⟩, cut, same⟩ := Option.map_eq_some_iff.mp found
  simp only [Prod.mk.injEq] at same
  exact same.2 ▸ cutAt?_length cut

theorem break?_length {text gap rest : List Char} (found : break? text = some (gap, rest)) :
    rest.length < text.length := by
  unfold break? at found
  split at found
  · rename_i after
    simp only [spanWhile, Option.some.injEq, Prod.mk.injEq] at found
    have shorter := (List.dropWhile_suffix (l := after) fun c => c == ' ' || c == '\t').length_le
    simp only [List.length_cons, ← found.2]
    omega
  · obtain ⟨⟨inner, after⟩, body, same⟩ := Option.map_eq_some_iff.mp found
    simp only [Prod.mk.injEq] at same
    have shorter := lineBody?_length (same.2 ▸ body)
    simp only [List.length_cons]
    omega
  · obtain ⟨⟨inner, after⟩, body, same⟩ := Option.map_eq_some_iff.mp found
    simp only [Prod.mk.injEq] at same
    have shorter := lineBody?_length (same.2 ▸ body)
    simp only [List.length_cons]
    omega
  · obtain ⟨⟨inner, after⟩, body, same⟩ := Option.map_eq_some_iff.mp found
    simp only [Prod.mk.injEq] at same
    have shorter := commentBody?_length (same.2 ▸ body)
    simp only [List.length_cons]
    omega
  · simp at found

/-- The line ends and comments at the start of a text, and the text after them. -/
def skipBreaks (text : List Char) : List (List Char) × List Char :=
  match _found : break? (text.dropWhile isGap) with
  | some (gap, rest) =>
    let more := skipBreaks rest
    (gap :: more.1, more.2)
  | none => ([], text.dropWhile isGap)
termination_by text.length
decreasing_by
  exact Nat.lt_of_lt_of_le (break?_length _found) (List.dropWhile_suffix isGap).length_le

/-- The token that the parser looks at: the line ends and comments before it, and the text after it.
-/
structure Ahead where
  breaks : List (List Char)
  token : Token
  rest : List Char
  deriving Repr

/-- Whether line ends or comments stand before a token. -/
def Ahead.broken (ahead : Ahead) : Bool :=
  !ahead.breaks.isEmpty

/-- The next token of a text. A single line end leaves the expectation as it is; after several,
every word with a meaning counts. -/
def ahead? (expected : Expectation) (text : List Char) : Option Ahead := do
  let (breaks, text) := skipBreaks text
  let (token, rest) ← token? (if breaks.length ≤ 1 then expected else .anything) text
  let joined := match token with
    | .symbol symbol => symbol.joinsLines
    | _ => false
  return ⟨if joined then breaks.dropLast else breaks, token, rest⟩

/-- The same token with the line ends before it taken in. -/
def Ahead.unbroken (ahead : Ahead) : Ahead :=
  { ahead with breaks := [] }

/-- Whether a token is a symbol that no line end precedes. -/
def Ahead.isSymbol (ahead : Ahead) (symbol : Symbol) : Bool :=
  !ahead.broken && ahead.token == .symbol symbol

def Ahead.afterSymbol? (ahead : Ahead) (symbol : Symbol) (expected : Expectation) : Option Ahead :=
  if ahead.isSymbol symbol then ahead? expected ahead.rest else none

end InfraPins.Hcl
