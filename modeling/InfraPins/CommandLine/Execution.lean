import InfraPins.CommandLine.Invocation
import InfraPins.Config.Loading
import InfraPins.Report
import InfraPins.Scan.Directory

namespace InfraPins.CommandLine

def Printed.text (code : Nat) (text : String) : Printed :=
  { code, output := text ++ "\n" }

def Printed.error (message : String) : Printed :=
  { code := 2, errors := "Error: " ++ message ++ "\n" }

/-- The code of a command that met a number of errors in its work. -/
def codeFor (errors : Nat) : Nat :=
  if errors = 0 then 0 else 1

/-- The message of a fault of a configuration. -/
def configMessage? : Failure → Option String
  | .config fault => some fault.message
  | _ => none

variable (machine : Machine)

/-- Does something with a configuration, which comes from a path or, if that is empty, from the
usual places. -/
def withConfig (path : String) (act : Config → Act Wire Printed) : Act Wire Printed := do
  let path := if path.isEmpty then none else some (Path.ofText path)
  match (← (Config.load machine path).attempt configMessage?) with
  | .ok config => act config
  | .error message => return .error message

def RunRequest.perform (verbose : Bool) (request : RunRequest) : Act Wire Printed :=
  withConfig machine request.config fun config => do
    let summary ← Run.run HostType.registry [Update.updater Wire] config
      { request.options with verbose }
    return .text (codeFor summary.errors) (Report.summaryText summary)

def ListRequest.perform (verbose : Bool) (request : ListRequest) : Act Wire Printed :=
  withConfig machine request.config fun config => do
    let report ← Run.list HostType.registry config { request.options with verbose }
      request.outdatedOnly
    let text ← match request.form with
      | .table => Act.use (Report.table report)
      | .json => pure (Report.statusJson report)
      | .markdown => Act.use (Report.markdown report)
    return .text (codeFor report.errors) text

def ScanRequest.perform (request : ScanRequest) : Act Wire Printed := do
  let root ← Act.lift (machine.expand (Path.ofText request.path))
  if (← Act.lift ((machine.isDirectory root).mapError .file)) then
    let dependencies ← Scan.directory machine root
    let text := if request.json then Report.dependencyJson dependencies
      else Report.dependencyLines dependencies
    return .text 0 text
  else return .error ("not a directory: " ++ request.path)

/-- Does what a use of the program is to do. -/
def Invocation.perform (invocation : Invocation) : Act Wire Printed :=
  match invocation.command with
  | .run request => request.perform machine invocation.verbose
  | .list request => request.perform machine invocation.verbose
  | .scan request => request.perform machine
  | .none => return { code := 0, output := openingGrammar.help }

/-- The paths of the files that a configuration may be in, and of those that its tokens may be read
from. -/
def configPaths (path : String) : List Path :=
  let asked := if path.isEmpty then none else some (Path.ofText path)
  let files := match asked with
    | some path => [path]
    | none =>
      let home := (machine.expand (Path.ofText "~")).toOption
      (Config.find machine).toOption.toList ++ home.toList.flatMap (Config.candidates machine)
  let tokens : List String := match (Config.load machine asked : Act Unit Config) () with
    | ⟨.ok config, _, _⟩ => config.providers.map fun provider => provider.token
    | _ => []
  files ++ tokens.filterMap fun (token : String) => (machine.expand (Path.ofText token)).toOption

/-- The paths of the files that a use of the program may read, as far as the files that are known
tell. -/
def Invocation.files (invocation : Invocation) : List Path :=
  match invocation.command with
  | .run request => configPaths machine request.config
  | .list request => configPaths machine request.config
  | _ => []

/-- The path of the directory that a use of the program searches, if it searches one. -/
def Invocation.directory? (invocation : Invocation) : Option Path :=
  match invocation.command with
  | .scan request => (machine.expand (Path.ofText request.path)).toOption
  | _ => none

def execute (line : List String) : Act Wire Printed :=
  match Invocation.read line with
  | .ok invocation => invocation.perform machine
  | .error printed => return printed

end InfraPins.CommandLine
