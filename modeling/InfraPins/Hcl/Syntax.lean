import InfraPins.Hcl.Token

/-! Documents of the configuration language as trees. An operator chain is kept flat, since nothing
here computes it and its text does not depend on how operators bind. -/

namespace InfraPins.Hcl

/-- How the marks that open and close a template directive strip white space. -/
structure StripMarks where
  before : Bool
  after : Bool
  deriving DecidableEq, Repr

mutual

/-- An expression. -/
inductive Expr where
  | integer (text : List Char)
  | decimal (text : List Char)
  | constant (word : Constant)
  | quoted (parts : List Part)
  | heredoc (text : List Char)
  | escapedText (text : List Char)
  | reference (name : String)
  | call (path : List String) (arguments : List Expr) (spread : Bool)
  | group (inner : Expr)
  | tuple (items : List Expr)
  | object (fields : List (Expr × Expr))
  | forTuple (binders : List String) (source value : Expr) (condition : Option Expr)
  | forObject (binders : List String) (source key value : Expr) (grouped : Bool)
    (condition : Option Expr)
  | access (subject : Expr) (step : Step)
  | unary (operator : Symbol) (operand : Expr)
  | chain (first : Expr) (rest : List (Symbol × Expr))
  | conditional (condition yes no : Expr)

/-- One step of access to a part of a value. -/
inductive Step where
  | member (name : String)
  | position (text : List Char)
  | index (key : Expr)
  | eachMember
  | each

/-- A part of a quoted string. -/
inductive Part where
  | plain (characters : List Char)
  | interpolation (inner : Expr)
  | ifStart (marks : StripMarks) (condition : Expr)
  | forStart (marks : StripMarks) (binders : List String) (source : Expr)
  | elseMark (marks : StripMarks)
  | endIf (marks : StripMarks)
  | endFor (marks : StripMarks)

end

/-- A label of a block: a word, a quoted string, or the line ends and comments before the brace,
which count as one more label. -/
inductive Label where
  | word (name : String)
  | quoted (parts : List Part)
  | gap (text : List Char)

inductive Statement where
  | assignment (name : String) (value : Expr)
  | block (kind : String) (labels : List Label) (body : List Statement)

/-- The statements of a document or a block. -/
abbrev Body := List Statement

end InfraPins.Hcl
