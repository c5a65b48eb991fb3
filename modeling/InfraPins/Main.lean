import InfraPins.CommandLine.Execution
import InfraPins.Files.Machine

/-! The program. It looks at the machine, does what its command line asks for, and prints what came
of it. It has no network of its own: every request to a hosting service is answered as missing. -/

namespace InfraPins.CommandLine

/-- The octets of a file; none if it cannot be read. -/
def octetsOf (path : String) : IO (Option (List UInt8)) := do
  try return some (← IO.FS.readBinFile path).toList
  catch _ => return none

/-- The text of a file; empty if it cannot be read. -/
def systemText (path : String) : IO String := do
  match (← octetsOf path) with
  | some octets => return (FileTree.textOf octets).toOption.getD ""
  | none => return ""

def machineAtHand : IO Machine := do
  return {
    environment := variablesOf (← systemText "/proc/self/environ")
    homes := homesOf (← systemText "/etc/passwd")
    directory := (Path.ofText (← IO.currentDir).toString).parts
    files := [] }

def placeOf (machine : Machine) (path : Path) : List String :=
  let names := if path.root.isEmpty then machine.directory ++ path.parts else path.parts
  names.foldl (fun place name => if name = ".." then place.dropLast else place ++ [name]) []

/-- What the system says when rights are lacking. -/
def refusalOf? : IO.Error → Option Refusal
  | .permissionDenied _ number words => some ⟨number.toNat, words⟩
  | _ => none

/-- A file, as far as it can be read. -/
def fileAt (place : List String) (text : String) : IO FileTree := do
  try return [(place, .file (← IO.FS.readBinFile text).toList)]
  catch cause => return (refusalOf? cause).toList.map fun refusal => (place, .sealed refusal)

def entryAt (place : List String) : IO FileTree := do
  let text := "/" ++ "/".intercalate place
  try
    if (← ((← IO.currentDir) / text).metadata).type matches .dir then return [(place, .directory)]
    else fileAt place text
  catch cause => return (refusalOf? cause).toList.map fun refusal => (place, .hidden refusal)

/-- What stands at a place and below it. -/
partial def treeAt (place : List String) : IO FileTree := do
  let here ← entryAt place
  match here with
  | [(_, .directory)] =>
    try
      let entries ← ((← IO.currentDir) / ("/" ++ "/".intercalate place)).readDir
      let below ← entries.toList.mapM fun entry => treeAt (place ++ [entry.fileName])
      return here ++ below.flatten
    catch cause => return (refusalOf? cause).toList.map fun refusal => (place, .closed refusal)
  | _ => return here

/-- A machine with the files that a use of the program may read. What the files say may lead to more
files, so they are looked up twice. -/
def withFiles (machine : Machine) (invocation : Invocation) : IO Machine := do
  let look (machine : Machine) : IO Machine := do
    let found ← (invocation.files machine).mapM fun path => entryAt (placeOf machine path)
    return { machine with files := found.flatten }
  match invocation.directory? machine with
  | some root =>
    return { machine with files := ← treeAt (placeOf machine root) }
  | none => look (← look machine)

/-- Prints what the journal logs; what is only for debugging if that is asked for. -/
def printLog (verbose : Bool) (events : List Event) : IO Unit :=
  events.forM fun
    | .log level text =>
      if verbose || level ≠ .debug then
        IO.eprintln (String.ofList (Report.padTo 7 level.name.toList) ++ " " ++ text)
      else pure ()
    | _ => pure ()

def print (printed : Printed) : IO UInt32 := do
  IO.print printed.output
  IO.eprint printed.errors
  return printed.code.toUInt32

end InfraPins.CommandLine

open InfraPins InfraPins.CommandLine in
def main (line : List String) : IO UInt32 := do
  match Invocation.read line with
  | .error printed => CommandLine.print printed
  | .ok invocation =>
    let machine ← withFiles (← machineAtHand) invocation
    let outcome := invocation.perform machine []
    printLog invocation.verbose outcome.events
    match outcome.result with
    | .ok printed => CommandLine.print printed
    | .error cause =>
      IO.eprintln cause.message
      return 1
