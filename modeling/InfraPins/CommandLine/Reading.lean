import InfraPins.CommandLine.Grammar
import InfraPins.Text.Digit
import InfraPins.Text.Search

/-! Reading a command line. All words are told apart first: options, also by the start of a long
name, operands, and a lone `--`, after which every word is an operand. Then the words are taken in
order, and options have their effects. What nothing takes is left over. -/

namespace InfraPins.CommandLine

open Text

variable {α : Type}

inductive Fault where
  | ambiguous (word : String) (names : List String)
  | noValue (option : String)
  | unwantedValue (option value : String)
  | notChoice (name value : String) (choices : List String)
  | unrecognized (words : List String)
  deriving DecidableEq, Repr

def Fault.message : Fault → String
  | .ambiguous word names =>
    "ambiguous option: " ++ word ++ " could match " ++ ", ".intercalate names
  | .noValue option => "argument " ++ option ++ ": expected one argument"
  | .unwantedValue option value =>
    "argument " ++ option ++ ": ignored explicit argument " ++ quoted value
  | .notChoice name value choices =>
    "argument " ++ name ++ ": invalid choice: " ++ quoted value ++ " (choose from "
      ++ ", ".intercalate (choices.map quoted) ++ ")"
  | .unrecognized words => "unrecognized arguments: " ++ " ".intercalate words

/-- Why reading stops before the settings are known. -/
inductive Stop where
  | help
  | release
  | fault (fault : Fault)
  deriving DecidableEq, Repr

/-- The text behind an option's name in the same word; it may be assigned by an equals sign. -/
structure Attached where
  assigned : Bool
  text : List Char
  deriving DecidableEq, Repr

/-- An option under one of its names, with the text behind the name, if there is any. -/
structure Use (α : Type) where
  option : OptionSpec α
  name : String
  attached : Option Attached

/-- A word of a command line, told apart from the other kinds. -/
inductive Word (α : Type) where
  | operand (text : String)
  /-- The first lone `--`. -/
  | mark
  | option (text : String) (use : Use α)
  /-- An option that the grammar lacks. -/
  | unknown (text : String)

def Word.text : Word α → String
  | .operand text => text
  | .mark => "--"
  | .option text _ => text
  | .unknown text => text

/-- Whether a text is a number below zero; it may end with a line feed. -/
def isNegativeNumber (word : List Char) : Bool :=
  match word with
  | '-' :: number =>
    let number := if number.getLast? = some '\n' then number.dropLast else number
    match cutAt? '.' number with
    | none => !number.isEmpty && number.all isDecimal
    | some (whole, fraction) =>
      whole.all isDecimal && !fraction.isEmpty && fraction.all isDecimal
  | _ => false

namespace Grammar

variable (grammar : Grammar α)

def named? (name : String) : Option (OptionSpec α) :=
  grammar.options.find? (·.names.contains name)

/-- The options by all their names, in order. -/
def byName : List (String × OptionSpec α) :=
  grammar.options.flatMap fun option => option.names.map (·, option)

/-- The option of a name that stands before an equals sign. -/
def assigned? (word : List Char) : Option (Use α) := do
  let (name, value) ← cutAt? '=' word
  let option ← grammar.named? (String.ofList name)
  return ⟨option, String.ofList name, some ⟨true, value⟩⟩

/-- What a word may stand for that is no name: any option whose long name starts with it, up to an
equals sign, or the option of its first letter. -/
def readings (word : List Char) : List (Use α) :=
  match word with
  | '-' :: '-' :: _ =>
    let (start, attached) : List Char × Option Attached := match cutAt? '=' word with
      | some (start, value) => (start, some ⟨true, value⟩)
      | none => (word, none)
    grammar.byName.filterMap fun (name, option) =>
      if start.isPrefixOf name.toList then some ⟨option, name, attached⟩ else none
  | '-' :: letter :: value =>
    let name := String.ofList ['-', letter]
    (grammar.named? name).toList.map fun option => ⟨option, name, some ⟨false, value⟩⟩
  | _ => []

/-- Tells a word apart. -/
def word (text : String) : Except Fault (Word α) :=
  let characters := text.toList
  if characters.head? ≠ some '-' then .ok (.operand text)
  else match grammar.named? text with
    | some option => .ok (.option text ⟨option, text, none⟩)
    | none =>
      if characters.length = 1 then .ok (.operand text)
      else match grammar.assigned? characters with
        | some use => .ok (.option text use)
        | none => match grammar.readings characters with
          | [use] => .ok (.option text use)
          | [] =>
            if isNegativeNumber characters || characters.contains ' ' then .ok (.operand text)
            else .ok (.unknown text)
          | several => .error (.ambiguous text (several.map Use.name))

/-- Tells words apart. -/
def words : List String → Except Fault (List (Word α))
  | [] => .ok []
  | text :: rest =>
    if text = "--" then .ok (.mark :: rest.map .operand)
    else do
      let first ← grammar.word text
      return first :: (← words rest)

/-- How a word of options ends. -/
inductive ClusterEnd (α : Type) where
  /-- With an option, and the value that is part of the word. -/
  | option (option : OptionSpec α) (value : Option String)
  /-- With letters that are no options; they are left over. -/
  | unknown (text : String)

/-- What a word of options comes to: options without values, and how the word ends. -/
structure Cluster (α : Type) where
  leading : List (OptionSpec α)
  ending : ClusterEnd α

/-- The cluster of an option with a text behind its name. An option of one letter that has no value
may be followed by the letters of more options. -/
def cluster (option : OptionSpec α) (isLetter assigned : Bool) :
    List Char → Except Fault (Cluster α)
  | [] =>
    if option.takesValue then .ok ⟨[], .option option (some "")⟩
    else .error (.unwantedValue option.label "")
  | letter :: rest =>
    if option.takesValue then
      .ok ⟨[], .option option (some (String.ofList (letter :: rest)))⟩
    else if !isLetter || assigned || letter == '-' then
      .error (.unwantedValue option.label (String.ofList (letter :: rest)))
    else match grammar.named? (String.ofList ['-', letter]), rest with
      | none, _ => .ok ⟨[option], .unknown (String.ofList ('-' :: letter :: rest))⟩
      | some next, [] => .ok ⟨[option], .option next none⟩
      | some next, '=' :: value => do
        let cluster ← cluster next true true value
        return { cluster with leading := option :: cluster.leading }
      | some next, rest => do
        let cluster ← cluster next true false rest
        return { cluster with leading := option :: cluster.leading }

def isLetterName (name : String) : Bool :=
  match name.toList with
  | '-' :: '-' :: _ => false
  | _ => true

def clusterOf (use : Use α) : Except Fault (Cluster α) :=
  match use.attached with
  | none => .ok ⟨[], .option use.option none⟩
  | some attached =>
    grammar.cluster use.option (isLetterName use.name) attached.assigned attached.text

end Grammar

def OptionSpec.perform (option : OptionSpec α) (value : Option String) (settings : α) :
    Except Stop α :=
  match option.effect with
  | .help => .error .help
  | .release => .error .release
  | .switch set => .ok (set settings)
  | .value _ choices put =>
    match value with
    | none => .error (.fault (.noValue option.label))
    | some value =>
      if choices.isEmpty || choices.contains value then .ok (put value settings)
      else .error (.fault (.notChoice option.label value choices))

/-- Does what options without values do, in order. -/
def performAll (options : List (OptionSpec α)) (settings : α) : Except Stop α :=
  options.foldlM (fun settings option => option.perform none settings) settings

namespace Grammar

variable (grammar : Grammar α)

/-- The settings that words come to, and the words that are left over. The operands are those that
are still expected. -/
def take (operands : Operands α) : List (Word α) → α → Except Stop (α × List String)
  | [], settings => .ok (settings, [])
  | .option _ use :: rest, settings => do
    let cluster ← (grammar.clusterOf use).mapError Stop.fault
    match cluster.ending with
    | .unknown text =>
      let (settings, left) ← take operands rest (← performAll cluster.leading settings)
      return (settings, text :: left)
    | .option option value =>
      if option.takesValue && value.isNone then
        match rest with
        | .operand value :: rest =>
          let settings ← performAll cluster.leading settings
          take operands rest (← option.perform (some value) settings)
        | _ => .error (.fault (.noValue option.label))
      else
        let settings ← performAll cluster.leading settings
        take operands rest (← option.perform value settings)
  | .unknown text :: rest, settings => do
    let (settings, left) ← take operands rest settings
    return (settings, text :: left)
  | .operand text :: rest, settings =>
    match operands with
    | .optional _ _ put =>
      match rest with
      | .mark :: rest => take .none rest (put text settings)
      | rest => take .none rest (put text settings)
    | .command name commands put =>
      if commands.any (·.1 = text) then .ok (put text (rest.map Word.text) settings, [])
      else .error (.fault (.notChoice name text (commands.map (·.1))))
    | .none => do
      let (settings, left) ← take operands rest settings
      return (settings, text :: left)
  | .mark :: rest, settings =>
    match operands, rest with
    | .optional _ _ put, .operand text :: rest => take .none rest (put text settings)
    | .optional _ _ _, rest => take .none rest settings
    | .command name commands _, .operand _ :: _ =>
      .error (.fault (.notChoice name "--" (commands.map (·.1))))
    | operands, rest => do
      let (settings, left) ← take operands rest settings
      return (settings, "--" :: left)

/-- The settings that a command line comes to, and the words that are left over. -/
def read (line : List String) (settings : α) : Except Stop (α × List String) := do
  grammar.take grammar.operands (← (grammar.words line).mapError Stop.fault) settings

end Grammar

end InfraPins.CommandLine
