import InfraPins.Dependency
import InfraPins.Version.Precedence

namespace InfraPins.Plan

variable {m : Type → Type} [Monad m]

/-- Sources with their tags. -/
abbrev Answers := List (String × List Datum)

def Answers.tags (answers : Answers) (source : String) : List Datum :=
  (answers.lookup source).getD []

/-- Asks for the tags of each distinct source, in the order in which sources first appear. -/
def askAll (resolve : String → m (List Datum)) (answers : Answers) :
    List ScanResult → m Answers
  | [] => pure answers
  | result :: rest =>
    let source := result.dependency.source
    match answers.lookup source with
    | some _ => askAll resolve answers rest
    | none => do
      let tags ← resolve source
      askAll resolve (answers ++ [(source, tags)]) rest

/-- The version to upgrade a dependency to: the first tag of its source, if that is newer. -/
def upgrade? (current : String) (tags : List Datum) : Except Failure (Option String) :=
  match tags with
  | [] => .ok none
  | latest :: _ =>
    if latest = .text current then .ok none
    else do
      if (← Version.isNewerTag (.text current) latest) then
        match latest with
        | .text version => return some version
        | _ => return none
      else return none

def task? (answers : Answers) (result : ScanResult) : Except Failure (Option UpgradeTask) := do
  let version ← upgrade? result.dependency.current (answers.tags result.dependency.source)
  return version.map fun version => ⟨result.dependency, version, result.content⟩

def tasks (answers : Answers) (scanned : List ScanResult) : Except Failure (List UpgradeTask) := do
  let found ← scanned.mapM (task? answers)
  return found.filterMap id

end InfraPins.Plan
