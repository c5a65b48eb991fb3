import InfraPins.Datum.Basic
import InfraPins.Files.Tree
import InfraPins.Version.Basic

/-! Causes of failure. A hosting service fails by report, and a run goes on without it; a value that
is not of the kind its use needs, or a version that cannot be read, ends the whole operation. -/

namespace InfraPins

/-- Why a configuration cannot be used. -/
inductive ConfigFault where
  | providersNotList
  | updatersNotMapping
  | noProvider
  | noType (index : Nat)
  | noToken (index : Nat)
  | noOrganizations (index : Nat)
  | notFound
  | unreadable (path : String) (fault : FileFault)
  | notParsed
  | notMapping
  deriving DecidableEq, Repr

def ConfigFault.message : ConfigFault → String
  | .providersNotList => "'providers' must be a list"
  | .updatersNotMapping => "'updaters' must be a mapping"
  | .noProvider => "at least one provider must be configured"
  | .noType index => "providers[" ++ toString index ++ "].type is required"
  | .noToken index => "providers[" ++ toString index ++
      "].token is required (set inline, via $\x7bENV_VAR\x7d, or as file path)"
  | .noOrganizations index =>
    "providers[" ++ toString index ++ "].organizations must have at least one entry"
  | .notFound => "config file not found in default locations"
  | .unreadable path fault =>
    "failed to read config file " ++ Text.quoted path ++ ": " ++ fault.message path
  | .notParsed => "failed to parse config file"
  | .notMapping => "config file must contain a mapping"

/-- Why an operation failed. -/
inductive Failure where
  /-- A hosting service did not do what it was asked. -/
  | host (message : String)
  /-- No hosting service has the name. -/
  | unknownHost (name : String)
  /-- An update could not be published. -/
  | update (message : String)
  /-- A configuration cannot be used. -/
  | config (fault : ConfigFault)
  /-- A version could not be read. -/
  | version (fault : Version.Fault)
  /-- A value is not of the kind its use needs. -/
  | misuse (cause : Misuse)
  /-- No user has the name that a path starts with. -/
  | unknownUser
  /-- A file or the path to it is not what it has to be. -/
  | file (fault : FileFault)
  /-- A token cannot stand in a header, which is ASCII. -/
  | tokenNotAscii (message : String)
  /-- An updater failed in a way of its own. -/
  | foreign (message : String)
  deriving DecidableEq, Repr

def Failure.message : Failure → String
  | .host message => message
  | .unknownHost name => "unknown provider type: " ++ Text.quoted name
  | .update message => message
  | .config fault => fault.message
  | .version fault => fault.message
  | .misuse cause => cause.name
  | .unknownUser => "could not determine home directory"
  | .file fault => fault.message ""
  | .tokenNotAscii message => message
  | .foreign message => message

def Failure.ofVersion (result : Except Version.Fault α) : Except Failure α :=
  result.mapError .version

def Failure.ofMisuse (result : Except Misuse α) : Except Failure α :=
  result.mapError .misuse

end InfraPins
