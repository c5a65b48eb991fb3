import InfraPins.CommandLine.Reading
import InfraPins.Host.Builtin
import InfraPins.Run

namespace InfraPins

/-- A release: its version, and the names of the updaters and of the types of hosts that it has. -/
structure Release where
  version : String
  updaters : List String
  hosts : List String
  deriving DecidableEq, Repr

namespace Release

def current : Release where
  version := "0.1.0"
  updaters := [Update.updaterName]
  hosts := HostType.names

def program : String := "autoupdate"

def text (release : Release) : String :=
  program ++ " v" ++ release.version ++ " (updaters: " ++ ", ".intercalate release.updaters
    ++ "; providers: " ++ ", ".intercalate release.hosts ++ ")"

end Release

namespace CommandLine

inductive ListForm where
  | table
  | json
  | markdown
  deriving DecidableEq, Repr

def ListForm.name : ListForm → String
  | .table => "table"
  | .json => "json"
  | .markdown => "markdown"

/-- The forms, in order. -/
def ListForm.all : List ListForm :=
  [.table, .json, .markdown]

/-- The form of a name; any other name is that of a table. -/
def ListForm.named (name : String) : ListForm :=
  (all.find? (·.name = name)).getD .table

/-- What `run` is to do. An empty path of a configuration stands for the usual places. -/
structure RunRequest where
  config : String := ""
  options : RunOptions := {}
  deriving DecidableEq

structure ListRequest where
  config : String := ""
  options : RunOptions := {}
  outdatedOnly : Bool := false
  form : ListForm := .table
  deriving DecidableEq

structure ScanRequest where
  path : String := "."
  json : Bool := false
  deriving DecidableEq

inductive Command where
  | run (request : RunRequest)
  | list (request : ListRequest)
  | scan (request : ScanRequest)
  /-- No command is given. -/
  | none
  deriving DecidableEq

/-- What the words before a command's own come to. -/
structure Opening where
  verbose : Bool := false
  command : Option (String × List String) := none
  deriving DecidableEq

/-- The commands, with what the help says about each. -/
def commands : List (String × String) :=
  [("run", "Scan configured repositories and open PRs"),
    ("list", "Show current and latest versions across configured repositories"),
    ("scan", "List dependencies in a local directory")]

/-- The grammar of the words before a command's own. -/
def openingGrammar : Grammar Opening where
  program := Release.program
  about := "Upgrade Git-pinned Terraform modules and Terragrunt image tags"
  options := [.help,
    ⟨["--version"], .release, "show program's version number and exit"⟩,
    ⟨["-v", "--verbose"], .switch fun opening => { opening with verbose := true },
      "Debug logging"⟩]
  operands := .command "command" commands fun name words opening =>
    { opening with command := some (name, words) }

def programOf (command : String) : String :=
  Release.program ++ " " ++ command

def runGrammar : Grammar RunRequest where
  program := programOf "run"
  about := ""
  options := [.help,
    ⟨["--config", "-c"], .value "FILE" [] fun path request => { request with config := path },
      "Config file path"⟩,
    ⟨["--dry-run"], .switch fun request => { request with options.dryRun := true },
      "Report upgrades without creating PRs"⟩,
    ⟨["--provider"], .value "PROVIDER" [] fun name request =>
      { request with options.hostType := name }, "Only process this provider type"⟩,
    ⟨["--org"], .value "ORG" [] fun name request =>
      { request with options.organization := name }, "Only process this organization"⟩,
    ⟨["--repo"], .value "REPO" [] fun name request =>
      { request with options.repository := name }, "Only process this repository"⟩,
    ⟨["--updater"], .value "UPDATER" [] fun name request =>
      { request with options.updater := name }, "Only run this updater"⟩]
  operands := .none

def listGrammar : Grammar ListRequest where
  program := programOf "list"
  about := ""
  options := [.help,
    ⟨["--config", "-c"], .value "FILE" [] fun path request => { request with config := path },
      "Config file path"⟩,
    ⟨["--outdated"], .switch fun request => { request with outdatedOnly := true },
      "Only show dependencies with a newer version"⟩,
    ⟨["--output"], .value "OUTPUT" (ListForm.all.map ListForm.name) fun name request =>
      { request with form := .named name }, "Output format (default: table)"⟩,
    ⟨["--provider"], .value "PROVIDER" [] fun name request =>
      { request with options.hostType := name }, "Only process this provider type"⟩,
    ⟨["--org"], .value "ORG" [] fun name request =>
      { request with options.organization := name }, "Only process this organization"⟩,
    ⟨["--repo"], .value "REPO" [] fun name request =>
      { request with options.repository := name }, "Only process this repository"⟩]
  operands := .none

def scanGrammar : Grammar ScanRequest where
  program := programOf "scan"
  about := ""
  options := [.help,
    ⟨["--json"], .switch fun request => { request with json := true }, "JSON output"⟩]
  operands := .optional "path" "Directory to scan" fun path request =>
    { request with path := path }

/-- A use of the program. -/
structure Invocation where
  verbose : Bool
  command : Command
  deriving DecidableEq

/-- What a use of the program prints, and the code that it ends with. -/
structure Printed where
  code : Nat
  output : String := ""
  errors : String := ""
  deriving DecidableEq, Repr

def Grammar.ending {α : Type} (grammar : Grammar α) : Stop → Printed
  | .help => { code := 0, output := grammar.help }
  | .release => { code := 0, output := filled (Release.current.text.splitOn " ") ++ "\n" }
  | .fault fault => {
      code := 2
      errors := grammar.usage ++ grammar.program ++ ": error: " ++ fault.message ++ "\n" }

/-- The settings of a grammar's words, and the words that are left over. -/
def Grammar.readOrEnd {α : Type} (grammar : Grammar α) (line : List String) (settings : α) :
    Except Printed (α × List String) :=
  (grammar.read line settings).mapError grammar.ending

def Command.read (name : String) (words : List String) : Except Printed (Command × List String) := do
  if name = "run" then
    let (request, left) ← runGrammar.readOrEnd words {}
    return (.run request, left)
  else if name = "list" then
    let (request, left) ← listGrammar.readOrEnd words {}
    return (.list request, left)
  else
    let (request, left) ← scanGrammar.readOrEnd words {}
    return (.scan request, left)

/-- The use of the program that a command line asks for. No word may be left over. -/
def Invocation.read (line : List String) : Except Printed Invocation := do
  let (opening, left) ← openingGrammar.readOrEnd line {}
  let (command, more) ← match opening.command with
    | some (name, words) => Command.read name words
    | none => pure (.none, [])
  let left := left ++ more
  if left.isEmpty then return ⟨opening.verbose, command⟩
  else throw (openingGrammar.ending (.fault (.unrecognized left)))

end CommandLine

end InfraPins
