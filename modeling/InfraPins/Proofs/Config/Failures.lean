import InfraPins.Config.Loading
import InfraPins.Proofs.Config.Token
import InfraPins.Proofs.Datum

/-! Why a configuration is not loaded. Whatever a machine holds, loading gives a configuration with
providers that lack nothing, or reports a fault of the configuration; what it overlooks is told here: a
file that is not UTF-8, values of the wrong kind inside the two lists, integers too long to be written,
and homes that nobody has. -/

namespace InfraPins

open Act

variable {σ : Type}

/-- The value of a field, null when it counts as false or there is none. -/
def presentIn (value : Datum) (name : String) : Datum :=
  match value with
  | .object fields =>
    let found := (Datum.lookup? name fields).getD .null
    if found.isTruthy then found else .null
  | _ => .null

/-- The text of a field, empty when it counts as false or there is none. -/
def textIn (value : Datum) (name : String) : String :=
  match presentIn value name with
  | .null => ""
  | found => found.plain

/-- A value in which an integer is too long to be written. -/
def Datum.TooLong (value : Datum) : Prop :=
  value.isWritable = false

/-- Why a provider cannot be read off a value. -/
inductive ProviderConfig.Escapes (machine : Machine) (value : Datum) : Failure → Prop where
  /-- The value is no mapping, and does not count as false. -/
  | noMapping (other : value.NoMapping) : Escapes machine value (.misuse .noMember)
  /-- An integer in the type, the token or the address is too long to be written. -/
  | tooLong {name : String} (named : name ∈ ["type", "token", "base_url"])
    (long : (presentIn value name).TooLong) : Escapes machine value (.foreign Text.tooLongToWrite)
  /-- The organizations are no list, nor anything else that has elements. -/
  | noElements (given : presentIn value "organizations" ≠ .null)
    (none : ¬ ∃ items, (presentIn value "organizations").elements = .ok items) :
    Escapes machine value (.misuse .unsupported)
  /-- An integer in an organization is too long to be written. -/
  | organizationTooLong {items : List Datum} {organization : Datum}
    (listed : (presentIn value "organizations").elements = .ok items)
    (member : organization ∈ items) (long : organization.TooLong) :
    Escapes machine value (.foreign Text.tooLongToWrite)
  /-- The token cannot be resolved. -/
  | token {cause : Failure} (unresolved : Token.Escapes machine (textIn value "token") cause) :
    Escapes machine value cause

/-- Why the settings of an updater cannot be read off a value. -/
inductive UpdaterConfig.Escapes (value : Datum) : Failure → Prop where
  /-- The value is no mapping, and does not count as false. -/
  | noMapping (other : value.NoMapping) : Escapes value (.misuse .noMember)
  /-- An integer in the target branch is too long to be written. -/
  | tooLong (long : (presentIn value "target_branch").TooLong) :
    Escapes value (.foreign Text.tooLongToWrite)

/-- Why a configuration cannot be read off a mapping: one of its providers or of its updaters cannot.
-/
inductive Config.Hides (machine : Machine) (value : Datum) : Failure → Prop where
  | provider {items : List Datum} {item : Datum} {cause : Failure}
    (listed : presentIn value "providers" = .list items) (member : item ∈ items)
    (escapes : ProviderConfig.Escapes machine (orEmpty item) cause) : Hides machine value cause
  | updater {fields : List (Datum × Datum)} {name settings : Datum} {cause : Failure}
    (given : presentIn value "updaters" = .object fields) (member : (name, settings) ∈ fields)
    (escapes : UpdaterConfig.Escapes (orEmpty settings) cause) : Hides machine value cause

namespace Config

/-- Why no file is found. -/
inductive Unfound (machine : Machine) : Failure → Prop where
  /-- The variable names a home that nobody has. -/
  | named {text : String} {cause : Failure} (named : machine.value? pathVariable = some text)
    (homeless : machine.Homeless (Path.ofText text) cause) : Unfound machine cause
  /-- The user at work has no home. -/
  | homeless {cause : Failure} (unnamed : machine.value? pathVariable = none)
    (homeless : machine.Homeless (Path.ofText "~") cause) : Unfound machine cause
  /-- One of the usual places cannot be looked up: it is too long for a path, or the system refuses to
  follow it. -/
  | unseen {home candidate : Path} {fault : FileFault} (unnamed : machine.value? pathVariable = none)
    (expanded : machine.expand (Path.ofText "~") = .ok home)
    (tried : candidate ∈ candidates machine home)
    (refused : machine.isFile candidate = .error fault) : Unfound machine (.file fault)

/-- The file that is read: the one that is asked for, or else the one that is found. -/
def source (machine : Machine) : Option Path → Except Failure Path
  | some path => .ok path
  | none => find machine

/-- What loading a configuration overlooks: the ways in which it fails without a fault of the
configuration. -/
inductive Escapes (machine : Machine) (path : Option Path) : Failure → Prop where
  /-- No file is asked for, and none can be looked for. -/
  | unfound {cause : Failure} (unasked : path = none) (unfound : Unfound machine cause) :
    Escapes machine path cause
  /-- The path of the file holds a null character. -/
  | notPath {file : Path} (read : source machine path = .ok file)
    (null : '\x00' ∈ file.text.toList) : Escapes machine path (.file .notPath)
  /-- The file is not UTF-8. -/
  | notText {file : Path} {fault : Text.Utf8.Fault} (read : source machine path = .ok file)
    (undecoded : machine.Undecoded file fault) : Escapes machine path (.file (.notText fault))
  /-- The file is YAML in which a scalar writes no value of the type that its tag names. -/
  | noValue {file : Path} {text : String} {fault : Yaml.Fault}
    (read : source machine path = .ok file) (given : machine.readText file = .ok text)
    (failed : Yaml.read text = .error fault) (wellFormed : fault ≠ .malformed) :
    Escapes machine path (textFailure fault)
  /-- The mapping in the file has a fault that is not looked for. -/
  | hidden {file : Path} {fields : List (Datum × Datum)} {cause : Failure}
    (read : source machine path = .ok file) (given : valueAt machine file = .ok (.object fields))
    (hides : Hides machine (.object fields) cause) : Escapes machine path cause

end Config

end InfraPins
