import InfraPins.Config.Token
import InfraPins.Proofs.Machine

namespace InfraPins.Token

open Act

variable {σ : Type} {fatal : Failure → Prop} {machine : Machine}

def Piece.meaning (machine : Machine) : Piece → String
  | .literal c => c.toString
  | .variable name => (machine.value? name).getD ""

def expansion (machine : Machine) (raw : String) : String :=
  String.join ((pieces raw.toList).map (Piece.meaning machine))

/-- Why a raw token cannot be resolved. -/
inductive Escapes (machine : Machine) (raw : String) : Failure → Prop where
  /-- What it expands to starts with the home of a user who has none. -/
  | homeless {cause : Failure}
    (unknown : machine.Homeless (Path.ofText (expansion machine raw)) cause) :
    Escapes machine raw cause
  /-- What it expands to names a file that is not UTF-8. -/
  | notText {path : Path} {fault : Text.Utf8.Fault}
    (named : machine.expand (Path.ofText (expansion machine raw)) = .ok path)
    (undecoded : machine.Undecoded path fault) : Escapes machine raw (.file (.notText fault))

end InfraPins.Token
