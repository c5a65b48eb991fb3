import InfraPins.Datum.Access

namespace InfraPins

/-- A hosting service to visit. -/
structure ProviderConfig where
  hostType : String
  token : String
  organizations : List String
  baseUrl : String
  deriving DecidableEq

structure UpdaterConfig where
  enabled : Bool := true
  autoComplete : Bool := false
  targetBranch : String := ""
  deriving DecidableEq

/-- A configuration, and the file it was read from. -/
structure Config where
  providers : List ProviderConfig
  updaters : List (Datum × UpdaterConfig)
  path : Option String := none
  deriving DecidableEq

/-- The settings of an updater by name: enabled and otherwise plain, unless they are given. -/
def Config.updater (config : Config) (name : String) : UpdaterConfig :=
  match config.updaters.find? fun entry => entry.1.sameKey (.text name) with
  | some entry => entry.2
  | none => {}

end InfraPins
