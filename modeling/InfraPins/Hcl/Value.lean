import InfraPins.Datum.Access
import InfraPins.Hcl.Parser
import InfraPins.Hcl.Printer

/-! What a document says, as plain values. A body is an object with a field for each assignment and,
for each type of block, a list of the blocks; each label of a block wraps the block in one more
object. A string keeps its quotes and escapes. An expression that is not a literal becomes a text
marked by `$` and braces. -/

namespace InfraPins.Hcl

open Decimal

def Constant.value : Constant → Datum
  | .null => .null
  | .yes => .bool true
  | .no => .bool false

/-- A heredoc without its final line end, in quotes. -/
def heredocText (text : List Char) : String :=
  let body := match text.reverse with
    | '\n' :: rest => rest.reverse
    | _ => text
  "\"" ++ String.ofList body ++ "\""

/-- An expression that is not a literal. -/
def Expr.marked (expr : Expr) : Datum :=
  .text ("$\x7b" ++ expr.print ++ "\x7d")

/-- The name that an expression gives to a field. -/
def Expr.keyText (expr : Expr) : String :=
  match expr with
  | .reference name => name
  | .quoted _ | .constant _ | .integer _ | .decimal _ => expr.print
  | _ => "$\x7b" ++ expr.print ++ "\x7d"

mutual

def Expr.value : Expr → Datum
  | .integer digits => .int (integerOf digits)
  | .decimal digits =>
    if hasExponent digits then .text ("$\x7b" ++ String.ofList digits ++ "\x7d")
    else match decimalOf? digits with
      | some number => .float number
      | none => .null
  | .constant word => word.value
  | .quoted parts => .text ("\"" ++ printParts parts ++ "\"")
  | .heredoc text => .text (heredocText text)
  | .escapedText text => .text (String.ofList text)
  | .tuple items => .list (itemValues items)
  | .object fields => .object (fieldValues [] fields)
  | expr => expr.marked

def itemValues : List Expr → List Datum
  | [] => []
  | item :: items => item.value :: itemValues items

/-- The fields of an object, added to those before them. -/
def fieldValues (done : List (Datum × Datum)) : List (Expr × Expr) → List (Datum × Datum)
  | [] => done
  | (key, value) :: fields =>
    fieldValues (Datum.insert (.text key.keyText) value.value done) fields

end

/-- The name that a label gives to a block: a quoted one keeps its quotes. -/
def Label.print : Label → String
  | .word name => name
  | .quoted parts => "\"" ++ printParts parts ++ "\""
  | .gap text => String.ofList text

/-- A block's body inside one object for each label. -/
def wrapLabels (labels : List Label) (body : Datum) : Datum :=
  labels.foldr (fun label inner => .object [(.text label.print, inner)]) body

/-- The fields of a body with one more block of a type. -/
def addBlock (kind : String) (block : Datum) (fields : List (Datum × Datum)) :
    List (Datum × Datum) :=
  match Datum.lookup? (.text kind) fields with
  | some (.list blocks) => Datum.insert (.text kind) (.list (blocks ++ [block])) fields
  | _ => Datum.insert (.text kind) (.list [block]) fields

mutual

/-- The fields that statements add to those before them. A block whose type an earlier assignment
named is an error. -/
def bodyFields (assigned : List String) (done : List (Datum × Datum)) :
    List Statement → Option (List (Datum × Datum))
  | [] => some done
  | .assignment name value :: rest =>
    bodyFields (name :: assigned) (Datum.insert (.text name) value.value done) rest
  | statement :: rest => do
    let (kind, block) ← blockValue statement
    if assigned.contains kind then none
    else bodyFields assigned (addBlock kind block done) rest

def blockValue : Statement → Option (String × Datum)
  | .assignment _ _ => none
  | .block kind labels body => do
    let fields ← bodyFields [] [] body
    let marked := Datum.insert (.text "__is_block__") (.bool true) fields
    return (kind, wrapLabels labels (.object marked))

end

/-- What a document says, if it can be read. -/
def read? (text : String) : Option (List (Datum × Datum)) :=
  (document? text).bind (bodyFields [] [])

end InfraPins.Hcl
