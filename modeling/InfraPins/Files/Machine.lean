import InfraPins.Failure

namespace InfraPins

open Text

structure Machine where
  environment : List (String × String)
  homes : List (String × String)
  directory : List String
  files : FileTree

namespace Machine

variable (machine : Machine)

/-- The value of a variable that is set and not empty. -/
def value? (name : String) : Option String :=
  match machine.environment.lookup name with
  | some value => if value.isEmpty then none else some value
  | none => none

/-- The home of a user; the empty name stands for the user at work, whose home the environment may
give. -/
def home? (user : String) : Option String :=
  if user.isEmpty then (machine.environment.lookup "HOME").or (machine.homes.lookup "root")
  else machine.homes.lookup user

def withoutEndSlashes (text : String) : String :=
  match (text.toList.reverse.dropWhile (· == '/')).reverse with
  | [] => "/"
  | kept => String.ofList kept

/-- The home that a leading tilde with a user's name stands for. -/
def homeOf (user : String) : Except Failure Path :=
  if user.toList.contains '\x00' then .error (.file .notPath)
  else match machine.home? user with
    | none => .error .unknownUser
    | some home =>
      let home := withoutEndSlashes home
      if home.startsWith "~" then .error .unknownUser else .ok (Path.ofText home)

/-- A path with a leading tilde replaced by the home that it stands for. -/
def expand (path : Path) : Except Failure Path :=
  match path.parts with
  | [] => .ok path
  | first :: rest =>
    match path.root.isEmpty, first.toList with
    | true, '~' :: user => do
      let home ← machine.homeOf (String.ofList user)
      return { home with parts := home.parts ++ rest }
    | _, _ => .ok path

def find (path : Path) : Except FileFault (List String × FileEntry) :=
  machine.files.find machine.directory path

/-- The numbers by which a system says that a path leads nowhere: nothing is there, what is open is no
file, what is passed is no directory, and links lead round in a circle. -/
def absenceNumbers : List Nat := [2, 9, 20, 40]

/-- Whether a path with a fault counts as one that leads nowhere. -/
def isAbsence : FileFault → Bool
  | .nameTooLong => false
  | .refused refusal => absenceNumbers.contains refusal.number
  | _ => true

/-- Whether a path leads to what passes a test. A path that leads nowhere does not; of one that is too
long, or that the system refuses to follow, it cannot be told. -/
def leadsTo (test : FileEntry → Bool) (path : Path) : Except FileFault Bool :=
  match machine.find path with
  | .ok (_, entry) => .ok (test entry)
  | .error fault => if isAbsence fault then .ok false else .error fault

def isFile (path : Path) : Except FileFault Bool :=
  machine.leadsTo (fun entry => match entry with
    | .file _ | .sealed _ => true
    | _ => false) path

def isDirectory (path : Path) : Except FileFault Bool :=
  machine.leadsTo (fun entry => match entry with
    | .directory | .closed _ => true
    | _ => false) path

def readText (path : Path) : Except FileFault String :=
  match machine.find path with
  | .ok (_, .file octets) => FileTree.textOf octets
  | .ok (_, .sealed refusal) | .ok (_, .hidden refusal) => .error (.refused refusal)
  | .ok (_, .directory) | .ok (_, .closed _) => .error .isDirectory
  | .error fault => .error fault

end Machine

/-- The variable that an assignment sets. -/
def assignment? (text : List Char) : Option (String × String) :=
  (cutAt? '=' text).map fun (name, value) => (String.ofList name, String.ofList value)

/-- The variables of an environment: assignments, each ended by a null character. -/
def variablesOf (text : String) : List (String × String) :=
  (splitAt '\x00' text.toList).filterMap assignment?

/-- The home of a user, from the line of an account: seven fields between colons, of which the first
is the name and the sixth the home. -/
def account? (line : List Char) : Option (String × String) :=
  match splitAt ':' line with
  | [name, _, _, _, _, home, _] => some (String.ofList name, String.ofList home)
  | _ => none

/-- The homes of users, from the lines of their accounts. -/
def homesOf (text : String) : List (String × String) :=
  (splitAt '\n' text.toList).filterMap account?

end InfraPins
