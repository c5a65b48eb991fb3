import InfraPins.Decimal.Shortest
import InfraPins.Hcl.Syntax
import InfraPins.Json.Reader

/-! The text of an expression as it stands inside an interpolation: one space around operators and
after commas, integers and decimals in their shortest form, all else as it was written. -/

namespace InfraPins.Hcl

open Decimal

/-- The integer that digits with an optional minus write. -/
def integerOf : List Char → Int
  | '-' :: digits => -(Json.naturalOf digits)
  | digits => Json.naturalOf digits

/-- The number that a decimal without exponent writes. More than one minus writes none. -/
def decimalOf? (text : List Char) : Option Binary64 :=
  let (negative, text) := match text with
    | '-' :: rest => (true, rest)
    | text => (false, text)
  match Text.cutAt? '.' text with
  | some (whole, fraction) =>
    if (whole ++ fraction).all Char.isDigit then
      some (Binary64.ofDecimal negative (Json.naturalOf (whole ++ fraction)) (-fraction.length))
    else none
  | none => none

/-- Whether a decimal is written with an exponent. -/
def hasExponent (text : List Char) : Bool :=
  text.any fun c => c == 'e' || c == 'E'

def StripMarks.opening (marks : StripMarks) : String :=
  if marks.before then "%\x7b~ " else "%\x7b "

def StripMarks.closing (marks : StripMarks) : String :=
  if marks.after then " ~\x7d" else " \x7d"

/-- Names separated by commas. -/
def printNames (names : List String) : String :=
  ", ".intercalate names

/-- A decimal as it is printed: the shortest text of the number, or its own spelling when it has an
exponent. -/
def printDecimal (text : List Char) : String :=
  if hasExponent text then String.ofList text
  else ((decimalOf? text).map Binary64.shortest).getD (String.ofList text)

mutual

/-- An expression in print, without the marks of an interpolation. -/
def Expr.print : Expr → String
  | .integer digits => toString (integerOf digits)
  | .decimal digits => printDecimal digits
  | .constant word => word.text
  | .quoted parts => "\"" ++ printParts parts ++ "\""
  | .heredoc text => String.ofList text
  | .escapedText text => String.ofList text
  | .reference name => name
  | .call path arguments spread =>
    "::".intercalate path ++ "(" ++ printItems arguments ++ (if spread then " ..." else "") ++ ")"
  | .group inner => "(" ++ inner.print ++ ")"
  | .tuple items => "[" ++ printItems items ++ "]"
  | .object fields => "\x7b" ++ printFields fields ++ "\x7d"
  | .forTuple binders source value condition =>
    "[for " ++ printNames binders ++ " in " ++ source.print ++ " : " ++ value.print
      ++ printCondition condition ++ "]"
  | .forObject binders source key value grouped condition =>
    "\x7bfor " ++ printNames binders ++ " in " ++ source.print ++ " : " ++ key.print ++ " => "
      ++ value.print ++ (if grouped then "..." else "") ++ printCondition condition ++ "\x7d"
  | .access subject step => subject.print ++ step.print
  | .unary operator inner => operator.text ++ inner.print
  | .chain first rest => first.print ++ printChain rest
  | .conditional condition yes no =>
    condition.print ++ " ? " ++ yes.print ++ " : " ++ no.print

def Step.print : Step → String
  | .member name => "." ++ name
  | .position digits => "." ++ String.ofList digits
  | .index key => "[" ++ key.print ++ "]"
  | .eachMember => ".*"
  | .each => "[*]"

/-- Expressions separated by commas. -/
def printItems : List Expr → String
  | [] => ""
  | [item] => item.print
  | item :: items => item.print ++ ", " ++ printItems items

def printFields : List (Expr × Expr) → String
  | [] => ""
  | [(key, value)] => key.print ++ " = " ++ value.print
  | (key, value) :: fields => key.print ++ " = " ++ value.print ++ ", " ++ printFields fields

def printCondition : Option Expr → String
  | none => ""
  | some condition => " if " ++ condition.print

/-- The operators and operands of a chain after the first. -/
def printChain : List (Symbol × Expr) → String
  | [] => ""
  | (operator, operand) :: rest => " " ++ operator.text ++ " " ++ operand.print ++ printChain rest

def printParts : List Part → String
  | [] => ""
  | part :: parts => part.print ++ printParts parts

def Part.print : Part → String
  | .plain characters => String.ofList characters
  | .interpolation inner => "$\x7b" ++ inner.print ++ "\x7d"
  | .ifStart marks condition => marks.opening ++ "if " ++ condition.print ++ marks.closing
  | .forStart marks binders source =>
    marks.opening ++ "for " ++ printNames binders ++ " in " ++ source.print ++ marks.closing
  | .elseMark marks => marks.opening ++ "else" ++ marks.closing
  | .endIf marks => marks.opening ++ "endif" ++ marks.closing
  | .endFor marks => marks.opening ++ "endfor" ++ marks.closing

end

end InfraPins.Hcl
