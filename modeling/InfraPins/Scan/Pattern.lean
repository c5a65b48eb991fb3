import InfraPins.Dependency
import InfraPins.Source
import InfraPins.Text.Search
import InfraPins.Text.Word
import InfraPins.Version.Basic

namespace InfraPins.Scan

open Text

/-- Something recognised in a text: the whole text before it, and its value. -/
structure Match (α : Type) where
  before : List Char
  value : α
  deriving Repr

/-- Every match of a recogniser, from left to right without overlap. The recogniser gives the value
and the text after the match. `passed` is the text before, last character first. -/
def findAll (recognise : List Char → Option (α × List Char)) (passed text : List Char) :
    List (Match α) :=
  match recognise text with
  | some (value, rest) =>
    if rest.length < text.length then
      let consumed := text.take (text.length - rest.length)
      ⟨passed.reverse, value⟩ :: findAll recognise (consumed.reverse ++ passed) rest
    else []
  | none => match text with
    | [] => []
    | c :: rest => findAll recognise (c :: passed) rest
termination_by text.length

/-- A non-empty text in double quotes that stands here: what it holds, and the text after it. -/
def quotedHere? (text : List Char) : Option (List Char × List Char) := do
  let rest ← after? ['"'] text
  let (value, rest) := spanWhile (· != '"') rest
  match rest with
  | '"' :: rest => if value.isEmpty then none else some (value, rest)
  | _ => none

/-- The mark of an assignment, with any white space around it. -/
def afterAssign? (text : List Char) : Option (List Char) :=
  (after? ['='] (trimStart text)).map trimStart

/-- A quoted source assigned here. -/
def sourceHere? (text : List Char) : Option (List Char × List Char) := do
  let rest ← after? "source".toList text
  quotedHere? (← afterAssign? rest)

/-- The first source assigned in a block before any closing brace. -/
def sourceWithin? : List Char → Option (List Char × List Char)
  | [] => none
  | c :: rest =>
    match sourceHere? (c :: rest) with
    | some found => some found
    | none => if c == '}' then none else sourceWithin? rest

/-- The name in the header of a module block that stands here, and the text after the name. -/
def headerHere? (text : List Char) : Option (List Char × List Char) := do
  let rest ← after? "module".toList text
  let (gap, rest) := spanWhile isBlank rest
  if gap.isEmpty then none else quotedHere? rest

/-- A module block that stands here, up to the end of its source: its name and its source. -/
def blockHere? (text : List Char) : Option ((List Char × List Char) × List Char) := do
  let (name, rest) ← headerHere? text
  let body ← after? ['{'] (trimStart rest)
  let (source, rest) ← sourceWithin? body
  return ((name, source), rest)

def moduleDependency? (name source : List Char) (path : String) (line : Nat) :
    Option Dependency :=
  let version := Source.version source
  if Source.isGit source && !version.isEmpty then
    some {
      name := String.ofList name
      source := String.ofList (Source.withoutVersion source)
      current := String.ofList version
      path
      line
      kind := .module }
  else none

/-- The module dependencies that the shape of a text shows. -/
def modulesByPattern (content : List Char) (path : String) : List Dependency :=
  (findAll blockHere? [] content).filterMap fun found =>
    moduleDependency? found.value.1 found.value.2 path (lineAfter found.before)

structure ImageAssignment where
  variableName : List Char
  image : List Char
  tag : List Char
  deriving Repr, DecidableEq

/-- The ending of a variable that holds an image. -/
def imageSuffix : List Char := "_image".toList

/-- A character of an image name. -/
def isImageChar (c : Char) : Bool :=
  c.isAlphanum || c == '.' || c == '_' || c == '-'

def imageHere? (text : List Char) : Option (ImageAssignment × List Char) := do
  let (variableName, rest) := spanWhile isWord text
  if imageSuffix.isSuffixOf variableName && imageSuffix.length < variableName.length then
    let rest ← after? ['"'] (← afterAssign? rest)
    let (image, rest) := spanWhile isImageChar rest
    let first ← image.head?
    if first.isAlphanum then
      let rest ← after? [':'] rest
      let (tag, rest) := spanWhile (· != '"') rest
      let rest ← after? ['"'] rest
      if tag.isEmpty then none else return (⟨variableName, image, tag⟩, rest)
    else none
  else none

def imageDependency? (path : String) (found : Match ImageAssignment) :
    Except Version.Fault (Option Dependency) := do
  if (← Version.isSemanticLike found.value.tag) then
    return some {
      name := String.ofList found.value.variableName
      source := String.ofList found.value.image
      current := String.ofList found.value.tag
      path
      line := lineAfter found.before
      kind := .image }
  else return none

/-- The image dependencies of a text: the assignments whose tag is a version. -/
def images (content : List Char) (path : String) : Except Version.Fault (List Dependency) := do
  let found ← (findAll imageHere? [] content).mapM (imageDependency? path)
  return found.filterMap id

end InfraPins.Scan
