import InfraPins.Hcl.Syntax

/-! Reading a document. Every function looks at one token, takes what it is for and hands on the
next token. Fuel bounds the nesting of calls; the number of characters bounds the number of tokens,
and no token is read more than a fixed number of calls deep. -/

namespace InfraPins.Hcl

open Text

/-- Whether every template directive of a string that opens is closed, each by the first end of its
kind at its own level. -/
def directivesClose (parts : List Part) : Bool :=
  (parts.foldl step []).isEmpty
where
  /-- The directives still open, the innermost first: `true` for an `if`. -/
  step (opened : List Bool) (part : Part) : List Bool :=
    match part with
    | .ifStart _ _ => true :: opened
    | .forStart _ _ _ => false :: opened
    | .endIf _ => if opened.head? == some true then opened.tail else opened
    | .endFor _ => if opened.head? == some false then opened.tail else opened
    | _ => opened

/-- The keyword of a directive at the start of a text. Any text may follow it directly. -/
def directiveWord? (text : List Char) : Option (Keyword × List Char) :=
  [Keyword.endFor, .endIf, .elseWord, .forWord, .ifWord].findSome? fun keyword =>
    (after? keyword.text.toList text).map (keyword, ·)

/-- A name that an identifier position takes. -/
def nameHere? (ahead : Ahead) (next : Expectation) : Option (String × Ahead) :=
  match ahead.broken, ahead.token with
  | false, .name name => (ahead? next ahead.rest).map (name, ·)
  | _, _ => none

def afterKeyword? (ahead : Ahead) (word : Keyword) (next : Expectation) : Option Ahead :=
  if !ahead.broken && ahead.token == .keyword word then ahead? next ahead.rest else none

/-- The names that a `for` introduces: one, or a key and a value. -/
def binders? (ahead : Ahead) : Option (List String × Ahead) := do
  let (first, ahead) ← nameHere? ahead .anything
  if ahead.isSymbol .comma then
    let (second, ahead) ← nameHere? (← ahead? .binder ahead.rest) .anything
    return ([first, second], ahead)
  else return ([first], ahead)

/-- The end of a directive: a strip mark or none, and the closing brace. -/
def directiveEnd? (ahead : Ahead) : Option (Bool × List Char) := do
  if ahead.isSymbol .strip then
    let ahead ← ahead? .anything ahead.rest
    if ahead.isSymbol .closeBrace then return (true, ahead.rest) else none
  else if ahead.isSymbol .closeBrace then return (false, ahead.rest)
  else none

/-- An escaped opening, a sequence that stands for itself, up to its closing brace. -/
def escapedOpening? (text : List Char) : Option (List Char × List Char) :=
  [['$', '$', '{'], ['%', '%', '{']].findSome? fun opening => do
    let rest ← after? opening text
    let (inner, rest) ← cutAt? '}' rest
    return (opening ++ inner ++ ['}'], rest)

/-- Whether a text starts with something that ends a run of plain characters. -/
def opensTemplate (text : List Char) : Bool :=
  [['$', '$', '{'], ['$', '{'], ['%', '%', '{'], ['%', '{']].any fun opening =>
    opening.isPrefixOf text

/-- Plain characters of a string: an escape keeps its backslash. -/
def plainCharacter? (text : List Char) : Option (List Char × List Char) :=
  if opensTemplate text then none
  else match text with
    | [] => none
    | '"' :: _ => none
    | '\\' :: c :: rest => if c == '\n' then none else some (['\\', c], rest)
    | '\\' :: [] => none
    | c :: rest => some ([c], rest)

/-- Whether the spelling of a decimal writes a number: it has one minus at most before its exponent.
-/
def isNumber (text : List Char) : Bool :=
  (text.takeWhile fun c => c != 'e' && c != 'E').count '-' ≤ 1

/-- Plain characters in front of the parts that follow them. -/
def consText (characters : List Char) : List Part → List Part
  | .plain more :: parts => .plain (characters ++ more) :: parts
  | parts => .plain characters :: parts

mutual

/-- An expression: an operator chain, or a conditional on one. -/
def expression : Nat → Ahead → Option (Expr × Ahead)
  | 0, _ => none
  | fuel + 1, ahead => do
    let (first, ahead) ← operand fuel ahead
    let (rest, ahead) ← operators fuel Symbol.closestBinding ahead
    let chain := if rest.isEmpty then first else .chain first rest
    if ahead.isSymbol .question then
      let ahead ← ahead? .operand ahead.rest
      let (yes, ahead) ← expression fuel ahead.unbroken
      let ahead ← ahead.unbroken.afterSymbol? .colon .operand
      let (no, ahead) ← expression fuel ahead.unbroken
      return (.conditional chain yes no, ahead)
    else return (chain, ahead)

/-- The operators and operands that continue a chain; the first may bind as closely as the limit
says. Line ends after an operand belong to the chain and close what the operator before it binds, so
that an operator after them binds no closer. -/
def operators : Nat → Nat → Ahead → Option (List (Symbol × Expr) × Ahead)
  | 0, _, _ => none
  | fuel + 1, limit, ahead =>
    match ahead.broken, ahead.token with
    | false, .symbol operator => match operator.binding? with
      | some binding =>
        if limit < binding then none
        else do
          let next ← ahead? .operand ahead.rest
          let (right, ahead) ← operand fuel next.unbroken
          let limit := if ahead.broken then binding else Symbol.closestBinding
          let (rest, ahead) ← operators fuel limit ahead.unbroken
          return ((operator, right) :: rest, ahead)
      | none => some ([], ahead)
    | _, _ => some ([], ahead)

/-- A term, or one unary operator before a term. -/
def operand : Nat → Ahead → Option (Expr × Ahead)
  | 0, _ => none
  | fuel + 1, ahead =>
    if ahead.isSymbol .minus || ahead.isSymbol .negation then do
      let operator := if ahead.isSymbol .minus then Symbol.minus else .negation
      let (inner, ahead) ← term fuel (← ahead? .operand ahead.rest)
      return (.unary operator inner, ahead)
    else term fuel ahead

/-- A term with its access steps. -/
def term : Nat → Ahead → Option (Expr × Ahead)
  | 0, _ => none
  | fuel + 1, ahead => do
    let (subject, ahead) ← atom fuel ahead
    steps fuel subject ahead

/-- The access steps after a term. -/
def steps : Nat → Expr → Ahead → Option (Expr × Ahead)
  | 0, _, _ => none
  | fuel + 1, subject, ahead =>
    if ahead.isSymbol .dot then do
      let step ← ahead? .member ahead.rest
      let next ← ahead? .anything step.rest
      match step.broken, step.token with
      | false, .name name => steps fuel (.access subject (.member name)) next
      | false, .constant word => steps fuel (.access subject (.member word.text)) next
      | false, .integer digits => steps fuel (.access subject (.position digits)) next
      | _, _ => none
    else if ahead.isSymbol .eachMember then do
      steps fuel (.access subject .eachMember) (← ahead? .anything ahead.rest)
    else if ahead.isSymbol .each then do
      steps fuel (.access subject .each) (← ahead? .anything ahead.rest)
    else if ahead.isSymbol .openList then do
      let (key, ahead) ← expression fuel (← ahead? .operand ahead.rest).unbroken
      let ahead ← ahead.unbroken.afterSymbol? .closeList .anything
      steps fuel (.access subject (.index key)) ahead
    else some (subject, ahead)

/-- A term without access steps. -/
def atom : Nat → Ahead → Option (Expr × Ahead)
  | 0, _ => none
  | fuel + 1, ahead =>
    if ahead.broken then none
    else match ahead.token with
      | .integer digits => (ahead? .anything ahead.rest).map (.integer digits, ·)
      | .decimal digits =>
        if isNumber digits then (ahead? .anything ahead.rest).map (.decimal digits, ·) else none
      | .constant word => (ahead? .anything ahead.rest).map (.constant word, ·)
      | .heredoc text => (ahead? .anything ahead.rest).map (.heredoc text, ·)
      | .escapedText text => (ahead? .anything ahead.rest).map (.escapedText text, ·)
      | .name name => do named fuel name (← ahead? .anything ahead.rest)
      | .symbol .quote => do
        let (parts, rest) ← string fuel ahead.rest
        return (.quoted parts, ← ahead? .anything rest)
      | .symbol .openGroup => do
        let (inner, ahead) ← expression fuel (← ahead? .operand ahead.rest).unbroken
        return (.group inner, ← ahead.unbroken.afterSymbol? .closeGroup .anything)
      | .symbol .openList => do list fuel (← ahead? .listStart ahead.rest).unbroken
      | .symbol .openBrace => do object fuel (← ahead? .anything ahead.rest).unbroken
      | _ => none

/-- A reference, or a call of the function that a name or a name in a namespace calls. -/
def named : Nat → String → Ahead → Option (Expr × Ahead)
  | 0, _, _ => none
  | fuel + 1, name, ahead => do
    if ahead.isSymbol .openGroup then
      call fuel [name] (← ahead? .operand ahead.rest).unbroken
    else if ahead.isSymbol .colons then
      let (second, ahead) ← nameHere? (← ahead? .binder ahead.rest) .anything
      let (third, ahead) ← nameHere? (← ahead.afterSymbol? .colons .binder) .anything
      let ahead ← ahead.afterSymbol? .openGroup .operand
      call fuel [name, second, third] ahead.unbroken
    else return (.reference name, ahead)

/-- The arguments of a call and its end. -/
def call : Nat → List String → Ahead → Option (Expr × Ahead)
  | 0, _, _ => none
  | fuel + 1, path, ahead => do
    if ahead.isSymbol .closeGroup then
      return (.call path [] false, ← ahead? .anything ahead.rest)
    else
      let (arguments, spread, ahead) ← arguments fuel ahead
      return (.call path arguments spread, ← ahead.unbroken.afterSymbol? .closeGroup .anything)

/-- The arguments of a call from the next one on, and whether the last is spread. A comma after the
last argument, or the mark that spreads it, has to follow it on its line. -/
def arguments : Nat → Ahead → Option (List Expr × Bool × Ahead)
  | 0, _ => none
  | fuel + 1, ahead => do
    let (argument, ahead) ← expression fuel ahead
    if ahead.isSymbol .ellipsis then
      return ([argument], true, ← ahead? .anything ahead.rest)
    else if ahead.unbroken.isSymbol .comma then
      let next ← ahead? .operand ahead.rest
      if !ahead.broken && next.unbroken.isSymbol .closeGroup then return ([argument], false, next)
      else
        let (more, spread, ahead) ← arguments fuel next.unbroken
        return (argument :: more, spread, ahead)
    else return ([argument], false, ahead)

/-- What a bracket opens: a list, or a list made by `for`. -/
def list : Nat → Ahead → Option (Expr × Ahead)
  | 0, _ => none
  | fuel + 1, ahead => do
    if ahead.token == .keyword .forWord then
      let (binders, source, ahead) ← forIntroduction fuel (← ahead? .binder ahead.rest)
      let (value, ahead) ← expression fuel ahead
      let (condition, ahead) ← forCondition fuel ahead.unbroken
      let ahead ← ahead.unbroken.afterSymbol? .closeList .anything
      return (.forTuple binders source value condition, ahead)
    else
      let (items, ahead) ← items fuel ahead
      return (.tuple items, ahead)

def items : Nat → Ahead → Option (List Expr × Ahead)
  | 0, _ => none
  | fuel + 1, ahead => do
    if ahead.isSymbol .closeList then return ([], ← ahead? .anything ahead.rest)
    else
      let (item, ahead) ← expression fuel ahead
      let ahead := ahead.unbroken
      if ahead.isSymbol .comma then
        let (more, ahead) ← items fuel (← ahead? .operand ahead.rest).unbroken
        return (item :: more, ahead)
      else return ([item], ← ahead.afterSymbol? .closeList .anything)

/-- What a brace opens in an expression: an object, or an object made by `for`. -/
def object : Nat → Ahead → Option (Expr × Ahead)
  | 0, _ => none
  | fuel + 1, ahead => do
    if ahead.token == .keyword .forWord then
      let next ← ahead? .binder ahead.rest
      if next.isSymbol .assign || next.isSymbol .colon then
        let (fields, ahead) ← field fuel (.reference Keyword.forWord.text) next
        return (.object fields, ahead)
      else
        let (binders, source, ahead) ← forIntroduction fuel next
        let (key, ahead) ← expression fuel ahead
        let ahead ← ahead.afterSymbol? .arrow .operand
        let (value, ahead) ← expression fuel ahead.unbroken
        let ahead := ahead.unbroken
        let grouped := ahead.isSymbol .ellipsis
        let ahead ← if grouped then ahead? .anything ahead.rest else some ahead
        let (condition, ahead) ← forCondition fuel ahead.unbroken
        let ahead ← ahead.unbroken.afterSymbol? .closeBrace .anything
        return (.forObject binders source key value grouped condition, ahead)
    else
      let (fields, ahead) ← fields fuel ahead
      return (.object fields, ahead)

/-- The fields of an object from the next one on, and the end of the object. -/
def fields : Nat → Ahead → Option (List (Expr × Expr) × Ahead)
  | 0, _ => none
  | fuel + 1, ahead => do
    if ahead.isSymbol .closeBrace then return ([], ← ahead? .anything ahead.rest)
    else match ahead.token with
      | .keyword word => field fuel (.reference word.text) (← ahead? .anything ahead.rest)
      | _ =>
        let (key, ahead) ← expression fuel ahead
        field fuel key ahead

/-- A field whose key has been read, and the fields after it. A comma between fields may be left
out. -/
def field : Nat → Expr → Ahead → Option (List (Expr × Expr) × Ahead)
  | 0, _, _ => none
  | fuel + 1, key, ahead =>
    if ahead.isSymbol .assign || ahead.isSymbol .colon then do
      let (value, ahead) ← expression fuel (← ahead? .operand ahead.rest)
      let ahead := ahead.unbroken
      let ahead ← if ahead.isSymbol .comma then ahead? .anything ahead.rest else some ahead
      let (more, ahead) ← fields fuel ahead.unbroken
      return ((key, value) :: more, ahead)
    else none

/-- What `for` introduces: names, a source, and the colon. -/
def forIntroduction : Nat → Ahead → Option (List String × Expr × Ahead)
  | 0, _ => none
  | fuel + 1, ahead => do
    let (binders, ahead) ← binders? ahead.unbroken
    let ahead ← afterKeyword? ahead.unbroken .inWord .operand
    let (source, ahead) ← expression fuel ahead.unbroken
    let ahead ← ahead.unbroken.afterSymbol? .colon .operand
    return (binders, source, ahead.unbroken)

def forCondition : Nat → Ahead → Option (Option Expr × Ahead)
  | 0, _ => none
  | fuel + 1, ahead => do
    match afterKeyword? ahead .ifWord .operand with
    | some ahead =>
      let (condition, ahead) ← expression fuel ahead.unbroken
      return (some condition, ahead)
    | none => return (none, ahead)

/-- A quoted string after its opening quote; its directives have to close. -/
def string : Nat → List Char → Option (List Part × List Char)
  | 0, _ => none
  | fuel + 1, text => do
    let (parts, rest) ← parts fuel text
    if directivesClose parts then some (parts, rest) else none

/-- The parts of a string up to the closing quote. -/
def parts : Nat → List Char → Option (List Part × List Char)
  | 0, _ => none
  | fuel + 1, text =>
    match escapedOpening? text with
    | some (characters, rest) => do
      let (more, rest) ← parts fuel rest
      return (consText characters more, rest)
    | none => match plainCharacter? text with
      | some (characters, rest) => do
        let (more, rest) ← parts fuel rest
        return (consText characters more, rest)
      | none => match text with
        | '"' :: rest => some ([], rest)
        | '$' :: '{' :: rest => do
          let (inner, ahead) ← expression fuel (← ahead? .operand rest)
          if ahead.isSymbol .closeBrace then
            let (more, rest) ← parts fuel ahead.rest
            return (.interpolation inner :: more, rest)
          else none
        | '%' :: '{' :: rest => do
          let (part, rest) ← directive fuel rest
          let (more, rest) ← parts fuel rest
          return (part :: more, rest)
        | _ => none

/-- A template directive after its opening. -/
def directive : Nat → List Char → Option (Part × List Char)
  | 0, _ => none
  | fuel + 1, text => do
    let text := text.dropWhile isGap
    let (before, text) := match after? ['~'] text with
      | some rest => (true, rest.dropWhile isGap)
      | none => (false, text)
    let (word, text) ← directiveWord? text
    match word with
    | .ifWord =>
      let (condition, ahead) ← expression fuel (← ahead? .operand text)
      let (after, rest) ← directiveEnd? ahead
      return (.ifStart ⟨before, after⟩ condition, rest)
    | .forWord =>
      let (binders, ahead) ← binders? (← ahead? .binder text)
      let ahead ← afterKeyword? ahead .inWord .operand
      let (source, ahead) ← expression fuel ahead
      let (after, rest) ← directiveEnd? ahead
      return (.forStart ⟨before, after⟩ binders source, rest)
    | word =>
      let (after, rest) ← directiveEnd? (← ahead? .anything text)
      match word with
      | .elseWord => return (.elseMark ⟨before, after⟩, rest)
      | .endIf => return (.endIf ⟨before, after⟩, rest)
      | .endFor => return (.endFor ⟨before, after⟩, rest)
      | _ => none

end

/-- The word that names an assignment or a block. Keywords and constants are no longer special
there. -/
def Token.statementWord? : Token → Option String
  | .name text => some text
  | .keyword word => some word.text
  | .constant word => some word.text
  | _ => none

mutual

def statements : Nat → Ahead → Option (Body × Ahead)
  | 0, _ => none
  | fuel + 1, ahead =>
    match ahead.token.statementWord? with
    | none => some ([], ahead.unbroken)
    | some name => do
      let (statement, ahead) ← statement fuel name (← ahead? .anything ahead.rest)
      let (more, ahead) ← statements fuel ahead
      return (statement :: more, ahead)

/-- A statement whose first word has been read. -/
def statement : Nat → String → Ahead → Option (Statement × Ahead)
  | 0, _, _ => none
  | fuel + 1, name, ahead =>
    if ahead.isSymbol .assign then do
      let (value, ahead) ← expression fuel (← ahead? .operand ahead.rest)
      return (.assignment name value, ahead)
    else do
      let (labels, ahead) ← labels fuel ahead
      let gap := if ahead.broken then [Label.gap ahead.breaks.flatten] else []
      let ahead ← ahead.unbroken.afterSymbol? .openBrace .anything
      let (body, ahead) ← statements fuel ahead
      let ahead ← ahead.afterSymbol? .closeBrace .anything
      return (.block name (labels ++ gap) body, ahead)

def labels : Nat → Ahead → Option (List Label × Ahead)
  | 0, _ => none
  | fuel + 1, ahead =>
    if ahead.broken then some ([], ahead)
    else match ahead.token.statementWord?, ahead.token with
      | some name, _ => do
        let (more, ahead) ← labels fuel (← ahead? .anything ahead.rest)
        return (.word name :: more, ahead)
      | none, .symbol .quote => do
        let (parts, rest) ← string fuel ahead.rest
        let (more, ahead) ← labels fuel (← ahead? .anything rest)
        return (.quoted parts :: more, ahead)
      | none, _ => some ([], ahead)

end

/-- The statements of a document. A line end is added to its text. -/
def document? (text : String) : Option Body := do
  let characters := text.toList ++ ['\n']
  let (body, ahead) ← statements (16 * characters.length + 16) (← ahead? .anything characters)
  if ahead.token == .finish then some body else none

end InfraPins.Hcl
