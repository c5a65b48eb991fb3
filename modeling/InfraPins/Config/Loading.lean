import InfraPins.Config.Reading
import InfraPins.Yaml.Value

namespace InfraPins.Config

variable {σ : Type}

/-- The variable that may name the file. -/
def pathVariable : String := "AUTOUPDATE_CONFIG"

def fileNames : List String :=
  [".autoupdate.yaml", ".autoupdate.yml", "autoupdate.yaml", "autoupdate.yml"]

/-- The directory of a user's configurations, in the user's home. -/
def homeConfig (machine : Machine) (home : Path) : Path :=
  match machine.value? "XDG_CONFIG_HOME" with
  | some directory => Path.ofText directory
  | none => home.child ".config"

/-- The directories that are searched, in order. -/
def directories (machine : Machine) (home : Path) : List Path :=
  [Path.ofText ".", Path.ofText ".config", Path.ofText "configs", home, homeConfig machine home]

/-- The paths that are tried, in order. -/
def candidates (machine : Machine) (home : Path) : List Path :=
  (directories machine home).flatMap fun directory => fileNames.map directory.child

def firstFile (machine : Machine) : List Path → Except FileFault (Option Path)
  | [] => .ok none
  | path :: rest => do
    if (← machine.isFile path) then return some path else firstFile machine rest

/-- The path of the configuration file. -/
def find (machine : Machine) : Except Failure Path :=
  match machine.value? pathVariable with
  | some path => machine.expand (Path.ofText path)
  | none => do
    let home ← machine.expand (Path.ofText "~")
    match firstFile machine (candidates machine home) with
    | .ok (some path) => return path
    | .ok none => throw (.config .notFound)
    | .error fault => throw (.file fault)

/-- How a fault of a configuration's text is reported. -/
def textFailure : Yaml.Fault → Failure
  | .malformed => .config .notParsed
  | .noValue message => .foreign message
  | .noTruthValue text => .misuse (.noField text)
  | .noTime => .misuse .noMember

/-- How a fault of a configuration's file is reported: a text or a path that is none is not
expected. -/
def fileFailure (path : Path) : FileFault → Failure
  | .notText fault => .file (.notText fault)
  | .notPath => .file .notPath
  | fault => .config (.unreadable path.text fault)

/-- The value in a configuration file, which has to be a mapping; an empty file holds an empty one.
-/
def valueAt (machine : Machine) (path : Path) : Except Failure Datum := do
  let text ← (machine.readText path).mapError (fileFailure path)
  match (← (Yaml.read text).mapError textFailure) with
  | .null => return .object []
  | .object fields => return .object fields
  | _ => throw (.config .notMapping)

/-- The configuration in a file, which has to lack nothing. -/
def load (machine : Machine) (path : Option Path) : Act σ Config := do
  let path ← match path with
    | some path => pure path
    | none => Act.lift (find machine)
  let value ← Act.lift (valueAt machine path)
  let config ← Config.ofDatum machine value (some path.text)
  Act.lift config.validated

end InfraPins.Config
