import InfraPins.Hcl.Value
import InfraPins.Scan.Pattern

/-! References found by reading a file as a document. The document is trusted only when it can be
read and every module in it has a literal source. -/

namespace InfraPins.Scan

open Text

/-- Why a document is not trusted. -/
inductive Distrust where
  | unreadable
  | blockShape
  | bodyShape
  | sourceNotText
  | sourceNotLiteral
  deriving DecidableEq, Repr

def Distrust.message : Distrust → String
  | .unreadable => "failed to parse"
  | .blockShape => "unexpected module block shape"
  | .bodyShape => "unexpected module body shape"
  | .sourceNotText => "module source is not a string"
  | .sourceNotLiteral => "module source is not a literal"

/-- A text without the double quotes around it. -/
def unquote (text : List Char) : List Char :=
  match text with
  | '"' :: rest => match rest.reverse with
    | '"' :: inner => inner.reverse
    | _ => text
  | _ => text

def interpolationMark : List Char := ['$', '{']

/-- The literal source of a module body; none when the body has no source. -/
def literalSource (body : List (Datum × Datum)) : Except Distrust (Option (List Char)) :=
  match Datum.lookup? (.text "source") body with
  | none => .ok none
  | some value =>
    let value := match value with
      | .list [only] => only
      | value => value
    match value with
    | .text text =>
      let source := unquote text.toList
      if occurs interpolationMark source then .error .sourceNotLiteral else .ok (some source)
    | _ => .error .sourceNotText

/-- The name of a module whose header line stands here, after nothing but spaces and tabs. -/
def namedHeaderHere? (name : List Char) (previous : Option Char) (text : List Char) :
    Option Unit :=
  if previous == none || previous == some '\n' then do
    let rest ← after? "module".toList (text.dropWhile fun c => c == ' ' || c == '\t')
    let (gap, rest) := spanWhile isBlank rest
    if gap.isEmpty then none
    else
      let _ ← after? ('"' :: name ++ ['"']) rest
      return ()
  else none

/-- The line of the first module header with a name, or zero when no line starts with one. -/
def headerLine (content name : List Char) : Nat :=
  match findFirst (namedHeaderHere? name) none content with
  | some found => lineAfter found.before
  | none => 0

def labelledDependency? (content : List Char) (path : String) (label body : Datum) :
    Except Distrust (Option Dependency) :=
  match body with
  | .object fields => do
    let name := match label with
      | .text text => unquote text.toList
      | _ => []
    match (← literalSource fields) with
    | none => return none
    | some source => return moduleDependency? name source path (headerLine content name)
  | _ => .error .bodyShape

/-- The dependencies of one module block: an object with a body under each label. -/
def blockDependencies (content : List Char) (path : String) (block : Datum) :
    Except Distrust (List Dependency) :=
  match block with
  | .object fields => do
    let found ← fields.mapM fun field => labelledDependency? content path field.1 field.2
    return found.filterMap id
  | _ => .error .blockShape

/-- The module dependencies of a document. What stands under `module` has to have elements. -/
def modulesByDocument (content : String) (path : String) :
    Except Misuse (Except Distrust (List Dependency)) :=
  match Hcl.read? content with
  | none => .ok (.error .unreadable)
  | some document => do
    let blocks ← ((Datum.lookup? (.text "module") document).getD (.list [])).elements
    return (do
      let found ← blocks.mapM (blockDependencies content.toList path)
      return found.flatten)

end InfraPins.Scan
