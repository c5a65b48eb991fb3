import InfraPins.Files.Machine
import InfraPins.Journal

namespace InfraPins.Token

open Text

variable {σ : Type}

/-- A piece of a raw token: text that stands for itself, or a placeholder for a variable. -/
inductive Piece where
  | literal (c : Char)
  | variable (name : String)
  deriving DecidableEq, Repr

/-- The name in a placeholder that stands here, and the text after the placeholder. -/
def placeholder? (text : List Char) : Option (List Char × List Char) := do
  let body ← after? ['$', '{'] text
  let (name, rest) ← cutAt? '}' body
  if name = [] then none else some (name, rest)

theorem placeholder?_length {text name rest : List Char}
    (found : placeholder? text = some (name, rest)) : rest.length < text.length := by
  simp only [placeholder?, Option.bind_eq_bind, Option.bind_eq_some_iff] at found
  obtain ⟨body, opened, ⟨name', rest'⟩, cut, kept⟩ := found
  have shape := after?_eq_some_iff.1 opened
  have shorter := cutAt?_length cut
  split at kept
  · simp at kept
  · simp only [Option.some.injEq, Prod.mk.injEq] at kept
    rw [shape, ← kept.2]
    simp only [List.length_append, List.length_cons, List.length_nil]
    omega

def pieces (raw : List Char) : List Piece :=
  match _found : placeholder? raw with
  | some (name, rest) => .variable (String.ofList name) :: pieces rest
  | none => match raw with
    | [] => []
    | c :: rest => .literal c :: pieces rest
termination_by raw.length
decreasing_by
  · exact placeholder?_length _found
  · simp

/-- What a piece expands to. A variable that is not set leaves nothing, with a warning. -/
def expandPiece (machine : Machine) : Piece → Act σ String
  | .literal c => return c.toString
  | .variable name =>
    match machine.value? name with
    | some value => return value
    | none => do
      Act.log .warning ("Environment variable " ++ quoted name ++ " is not set")
      return ""

def expand (machine : Machine) (raw : String) : Act σ String := do
  return String.join (← (pieces raw.toList).mapM (expandPiece machine))

/-- What the file holds that a path leads to, if it leads to a file. -/
def held? (machine : Machine) (path : Path) : Act σ (Option String) := do
  if (← Act.lift ((machine.isFile path).mapError .file)) then
    Act.log .info ("Read token from file " ++ quoted path.text)
    let content ← Act.lift ((machine.readText path).mapError .file)
    return some (String.ofList (trim content.toList))
  else return none

/-- What is said of a path that the system does not let be looked up or read. That a file is not UTF-8
is not the system's to say. -/
def refusal? (path : Path) : Failure → Option String
  | .file (.notText _) | .file .notPath => none
  | .file fault => some (fault.message path.text)
  | _ => none

/-- The token that a text stands for: what the file holds that it names, if it names one that can be
read, and itself otherwise. -/
def ofFile (machine : Machine) (token : String) : Act σ String := do
  let path ← Act.lift (machine.expand (Path.ofText token))
  match (← (held? machine path).attempt (refusal? path)) with
  | .ok (some held) => return held
  | .ok none => return token
  | .error message =>
    Act.log .warning ("Failed to read token file " ++ quoted path.text ++ ": " ++ message)
    return token

def resolve (machine : Machine) (raw : String) : Act σ String := do
  let token ← expand machine raw
  if token.isEmpty then return token else ofFile machine token

end InfraPins.Token
