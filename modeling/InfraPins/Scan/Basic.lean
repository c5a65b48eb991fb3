import InfraPins.Files.Path
import InfraPins.Journal
import InfraPins.Scan.Structured

namespace InfraPins

open Text

inductive FileFormat where
  | terraform
  | terragrunt
  deriving DecidableEq, Repr

def FileFormat.name : FileFormat → String
  | .terraform => "terraform"
  | .terragrunt => "terragrunt"

/-- The format that a path's suffix stands for. -/
def FileFormat.ofPath? (path : String) : Option FileFormat :=
  let suffix := (Path.ofText path).suffix
  if suffix = ".tf" then some .terraform
  else if suffix = ".hcl" then some .terragrunt
  else none

namespace Scan

/-- What scanning a file gives: the dependencies, and why its document was not trusted, if it was
not. -/
structure Report where
  distrust : Option Distrust
  dependencies : List Dependency
  deriving Repr

def report (content path : String) : FileFormat → Except Failure Report
  | .terragrunt => do
    let images ← Failure.ofVersion (images content.toList path)
    return ⟨none, images⟩
  | .terraform => do
    match (← Failure.ofMisuse (modulesByDocument content path)) with
    | .ok modules => return ⟨none, modules⟩
    | .error distrust => return ⟨some distrust, modulesByPattern content.toList path⟩

/-- The dependencies of a file in the given format or, without one, in that of its path. A file of
no known format has none. -/
def reportAs (content path : String) (format? : Option FileFormat) : Except Failure Report :=
  match format?.or (FileFormat.ofPath? path) with
  | some format => report content path format
  | none => .ok ⟨none, []⟩

variable {σ : Type}

/-- The dependencies of a report, logging why the document was not trusted, if it was not. -/
def Report.logged (report : Report) : Act σ (List Dependency) := do
  match report.distrust with
  | some distrust => Act.log .debug ("Falling back to regex scan: " ++ distrust.message)
  | none => pure ()
  return report.dependencies

def dependencies (content path : String) (format? : Option FileFormat) :
    Act σ (List Dependency) := do
  (← Act.lift (reportAs content path format?)).logged

end Scan

end InfraPins
