import InfraPins.Text.Quoted

/-! What a command line may hold. A grammar lists options and says what becomes of the words that
belong to none; the effects of options are on settings of any type. The usage and the help follow
from the grammar. -/

namespace InfraPins.CommandLine

/-- What an option does to the settings. -/
inductive Effect (α : Type) where
  /-- Shows the help and ends. -/
  | help
  /-- Shows the release and ends. -/
  | release
  /-- Changes the settings by itself. -/
  | switch (set : α → α)
  /-- Changes the settings by a value: any value if there are no choices, and one of them if there
  are. -/
  | value (placeholder : String) (choices : List String) (put : String → α → α)

/-- An option: its names, what it does, and what the help says about it. -/
structure OptionSpec (α : Type) where
  names : List String
  effect : Effect α
  about : String

/-- What becomes of the words that belong to no option. -/
inductive Operands (α : Type) where
  /-- None is expected. -/
  | none
  /-- There may be one. -/
  | optional (name about : String) (put : String → α → α)
  /-- There may be one of some commands, each with what the help says about it; all further words
  are its own. -/
  | command (name : String) (commands : List (String × String)) (put : String → List String → α → α)

structure Grammar (α : Type) where
  program : String
  about : String
  options : List (OptionSpec α)
  operands : Operands α

variable {α : Type}

def OptionSpec.help : OptionSpec α :=
  ⟨["-h", "--help"], .help, "show this help message and exit"⟩

/-- The names of an option as messages give them. -/
def OptionSpec.label (option : OptionSpec α) : String :=
  "/".intercalate option.names

def OptionSpec.takesValue (option : OptionSpec α) : Bool :=
  match option.effect with
  | .value _ _ _ => true
  | _ => false

/-- Alternatives between braces. -/
def alternatives (choices : List String) : String :=
  "\x7b" ++ ",".intercalate choices ++ "\x7d"

def OptionSpec.shape (option : OptionSpec α) (name : String) : String :=
  match option.effect with
  | .value placeholder choices _ =>
    name ++ " " ++ (if choices.isEmpty then placeholder else alternatives choices)
  | _ => name

/-- Pieces put on lines, as many on each as a width allows; lines after the first are indented. The
column says how much of the line is taken, and `fresh` that the line holds no piece yet. -/
def fillFrom (width indent column : Nat) (fresh : Bool) : List String → String
  | [] => ""
  | piece :: pieces =>
    let stop := column + piece.length
    if fresh then piece ++ fillFrom width indent stop false pieces
    else if stop + 1 ≤ width then " " ++ piece ++ fillFrom width indent (stop + 1) false pieces
    else
      "\n" ++ "".pushn ' ' indent ++ piece
        ++ fillFrom width indent (indent + piece.length) false pieces

def textWidth : Nat := 78

def filled (words : List String) : String :=
  fillFrom textWidth 0 0 true words

namespace Grammar

variable (grammar : Grammar α)

/-- What the usage shows of the options. -/
def optionShapes : List String :=
  grammar.options.map fun option => "[" ++ option.shape (option.names.headD "") ++ "]"

/-- What the usage shows of the operands. -/
def operandShapes : List String :=
  match grammar.operands with
  | .none => []
  | .optional name _ _ => ["[" ++ name ++ "]"]
  | .command _ commands _ => [alternatives (commands.map (·.1)), "..."]

/-- The usage: on one line if that is not too long. -/
def usage : String :=
  let opening := "usage: " ++ grammar.program
  let options := grammar.optionShapes
  let operands := grammar.operandShapes
  let line := " ".intercalate (opening :: options ++ operands)
  if line.length ≤ textWidth then line ++ "\n"
  else
    let indent := opening.length + 1
    let more := if operands.isEmpty then ""
      else "\n" ++ "".pushn ' ' indent ++ fillFrom textWidth indent indent true operands
    fillFrom textWidth indent 0 true (opening :: options) ++ more ++ "\n"

def operandRows : List (String × String) :=
  match grammar.operands with
  | .none => []
  | .optional name about _ => [(name, about)]
  | .command _ commands _ => commands

def optionRows : List (String × String) :=
  grammar.options.map fun option => (", ".intercalate (option.names.map option.shape), option.about)

/-- A row of the help, its second part at a column. -/
def row (column : Nat) (entry : String × String) : String :=
  "  " ++ entry.1 ++ "".pushn ' ' (column - entry.1.length) ++ "  " ++ entry.2 ++ "\n"

/-- A titled part of the help; no rows, no part. -/
def part (column : Nat) (title : String) (rows : List (String × String)) : String :=
  if rows.isEmpty then "" else "\n" ++ title ++ ":\n" ++ String.join (rows.map (row column))

def help : String :=
  let column := (grammar.operandRows ++ grammar.optionRows).foldl
    (fun column entry => max column entry.1.length) 0
  grammar.usage ++ (if grammar.about.isEmpty then "" else "\n" ++ grammar.about ++ "\n")
    ++ part column "positional arguments" grammar.operandRows
    ++ part column "options" grammar.optionRows

end Grammar

end InfraPins.CommandLine
