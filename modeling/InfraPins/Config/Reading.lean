import InfraPins.Config.Basic
import InfraPins.Config.Token

namespace InfraPins

open Datum

variable {σ : Type}

/-- A field's value, or null when it counts as false or is absent. -/
def presentField (value : Datum) (name : String) : Act σ Datum := do
  let found ← Act.use (value.fieldOr name .null)
  return if found.isTruthy then found else .null

/-- The plain text of a value that can be written. -/
def spelled (value : Datum) : Except Failure String :=
  if value.isWritable then .ok value.plain else .error (.foreign Text.tooLongToWrite)

/-- A field as plain text, empty when it counts as false. -/
def textField (value : Datum) (name : String) : Act σ String := do
  match (← presentField value name) with
  | .null => return ""
  | found => Act.lift (spelled found)

/-- The organizations that a value lists; a lone text is one organization. -/
def organizationsOf : Datum → Except Failure (List String)
  | .null => .ok []
  | .text organization => .ok [organization]
  | value => do
    (← Failure.ofMisuse value.elements).mapM spelled

def ProviderConfig.ofDatum (machine : Machine) (value : Datum) : Act σ ProviderConfig := do
  let organizations ← presentField value "organizations"
  let hostType ← textField value "type"
  let token ← Token.resolve machine (← textField value "token")
  let organizations ← Act.lift (organizationsOf organizations)
  let baseUrl ← textField value "base_url"
  return { hostType, token, organizations, baseUrl }

/-- The settings that a value describes. -/
def UpdaterConfig.ofDatum (value : Datum) : Act σ UpdaterConfig := do
  let enabled ← Act.use (value.fieldOr "enabled" (.bool true))
  let autoComplete ← Act.use (value.fieldOr "auto_complete" (.bool false))
  let targetBranch ← textField value "target_branch"
  return { enabled := enabled.isTruthy, autoComplete := autoComplete.isTruthy, targetBranch }

/-- A value, or the empty mapping when it counts as false. -/
def orEmpty (value : Datum) : Datum :=
  value.orElse (.object [])

/-- The providers that a value lists; null lists none. -/
def providersOf : Datum → Except Failure (List Datum)
  | .null => .ok []
  | .list items => .ok items
  | _ => .error (.config .providersNotList)

/-- The updaters that a value names, with what stands under each name; null names none. -/
def updatersOf : Datum → Except Failure (List (Datum × Datum))
  | .null => .ok []
  | .object fields => .ok fields
  | _ => .error (.config .updatersNotMapping)

/-- The configuration that a value describes. -/
def Config.ofDatum (machine : Machine) (value : Datum) (path : Option String) : Act σ Config := do
  let providers ← presentField value "providers"
  let updaters ← presentField value "updaters"
  let providers ← Act.lift (providersOf providers)
  let updaters ← Act.lift (updatersOf updaters)
  let providers ← providers.mapM fun provider => ProviderConfig.ofDatum machine (orEmpty provider)
  let updaters ← updaters.mapM fun (name, settings) => do
    return (name, ← UpdaterConfig.ofDatum (orEmpty settings))
  return { providers, updaters, path }

def ProviderConfig.fault? (index : Nat) (provider : ProviderConfig) : Option ConfigFault :=
  if provider.hostType.isEmpty then some (.noType index)
  else if provider.token.isEmpty then some (.noToken index)
  else if provider.organizations.isEmpty then some (.noOrganizations index)
  else none

def firstFault? (index : Nat) : List ProviderConfig → Option ConfigFault
  | [] => none
  | provider :: rest => (provider.fault? index).or (firstFault? (index + 1) rest)

/-- What a configuration lacks, if anything. -/
def Config.fault? (config : Config) : Option ConfigFault :=
  if config.providers.isEmpty then some .noProvider else firstFault? 0 config.providers

/-- A configuration that lacks nothing. -/
def Config.validated (config : Config) : Except Failure Config :=
  match config.fault? with
  | some fault => .error (.config fault)
  | none => .ok config

end InfraPins
