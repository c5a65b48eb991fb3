import InfraPins.Config.Basic
import InfraPins.Host.Basic
import InfraPins.Update

/-! Runs over everything that a configuration names: each provider, each of its organizations, each
repository of those. A provider, an organization or an update that fails is logged and counted, and
the run goes on with the next. -/

namespace InfraPins

/-- Filters of a run; an empty text filters nothing. -/
structure RunOptions where
  dryRun : Bool := false
  verbose : Bool := false
  hostType : String := ""
  organization : String := ""
  repository : String := ""
  updater : String := ""
  deriving DecidableEq

/-- What a run came to. -/
structure RunSummary where
  repositories : Nat
  pullRequests : List PullRequest
  errors : Nat
  deriving DecidableEq

/-- One dependency and the newest version of its source. -/
structure DependencyStatus where
  organization : String
  repository : Datum
  name : String
  source : String
  kind : String
  current : String
  latest : Datum
  path : String
  needsUpgrade : Bool
  bump : String
  deriving DecidableEq

/-- The dependencies of all visited repositories. -/
structure DependencyReport where
  repositories : Nat
  dependencies : List DependencyStatus
  errors : Nat
  deriving DecidableEq

/-- The number of dependencies that need an upgrade. -/
def DependencyReport.outdated (report : DependencyReport) : Nat :=
  report.dependencies.countP (·.needsUpgrade)

/-- Something that can bring a repository up to date. -/
structure Updater (σ : Type) where
  name : String
  detect : Host σ → Repository → Act σ Bool
  createPullRequests : Host σ → Repository → UpdateOptions → Act σ (List PullRequest)

/-- The updater of modules and images. -/
def Update.updater (σ : Type) : Updater σ where
  name := Update.updaterName
  detect := Update.detect
  createPullRequests := Update.createPullRequests

namespace Run

variable {σ β : Type}

/-- Totals of a visit, with what the visitor has gathered. -/
structure Tally (β : Type) where
  repositories : Nat
  errors : Nat
  gathered : β

/-- What is done at each visited repository: given the place of its provider in the configuration,
the host and what has been gathered, it gathers more and says how many errors it met. -/
abbrev Visitor (σ β : Type) := Nat → Host σ → Repository → β → Act σ (β × Nat)

def Tally.addError (tally : Tally β) : Tally β :=
  { tally with errors := tally.errors + 1 }

def passes (filter value : String) : Bool :=
  filter.isEmpty || value == filter

/-- Visits repositories, in order, of those that pass the filter. -/
def visitRepositories (options : RunOptions) (visit : Repository → β → Act σ (β × Nat)) :
    List Repository → Tally β → Act σ (Tally β)
  | [], tally => pure tally
  | repository :: rest, tally =>
    if !options.repository.isEmpty && repository.name ≠ .text options.repository then
      visitRepositories options visit rest tally
    else do
      let (gathered, errors) ← visit repository tally.gathered
      visitRepositories options visit rest
        ⟨tally.repositories + 1, tally.errors + errors, gathered⟩

/-- Visits organizations, in order, of those that pass the filter. -/
def visitOrganizations (options : RunOptions) (host : Host σ)
    (visit : Repository → β → Act σ (β × Nat)) : List String → Tally β → Act σ (Tally β)
  | [], tally => pure tally
  | organization :: rest, tally =>
    if !passes options.organization organization then
      visitOrganizations options host visit rest tally
    else do
      Act.log .info ("Discovering repositories in " ++ Text.quoted organization ++ "...")
      match (← (host.askDiscover organization).attempt Failure.hostMessage?) with
      | .error message =>
        Act.log .error ("Failed to discover repos in " ++ Text.quoted organization ++ ": "
          ++ message)
        visitOrganizations options host visit rest tally.addError
      | .ok repositories =>
        Act.log .info ("Found " ++ toString repositories.length ++ " repositories in "
          ++ Text.quoted organization)
        let tally ← visitRepositories options visit repositories tally
        visitOrganizations options host visit rest tally

/-- Visits providers, in order, of those that pass the filter. Each host is let go of once its
organizations have been visited, or a visit has failed. -/
def visitProviders (registry : Registry σ) (options : RunOptions) (visit : Visitor σ β) (index : Nat) :
    List ProviderConfig → Tally β → Act σ (Tally β)
  | [], tally => pure tally
  | provider :: rest, tally =>
    if !passes options.hostType provider.hostType then
      visitProviders registry options visit (index + 1) rest tally
    else do
      let opened := registry.openHost provider.hostType provider.token provider.baseUrl
      match (← opened.attempt Failure.hostMessage?) with
      | .error message =>
        Act.log .error ("Failed to initialize provider " ++ Text.quoted provider.hostType ++ ": "
          ++ message)
        visitProviders registry options visit (index + 1) rest tally.addError
      | .ok host =>
        Act.log .info ("Processing provider: " ++ host.name)
        let tally ← (visitOrganizations options host (visit index host) provider.organizations
          tally).ensuring host.askClose
        visitProviders registry options visit (index + 1) rest tally

def updateOptions (options : RunOptions) (settings : UpdaterConfig) : UpdateOptions where
  dryRun := options.dryRun
  verbose := options.verbose
  targetBranch := settings.targetBranch
  autoComplete := settings.autoComplete

def update (options : RunOptions) (config : Config) (updater : Updater σ) (host : Host σ)
    (repository : Repository) : Act σ (List PullRequest × Nat) := do
  let settings := config.updater updater.name
  if !passes options.updater updater.name || !settings.enabled then return ([], 0)
  else
    Act.record (.detected updater.name repository)
    if (← updater.detect host repository) then
      let opening := "[" ++ updater.name ++ "] "
      Act.log .info (opening ++ "Detected in " ++ repository.fullName)
      let wanted := updateOptions options settings
      let create : Act σ (List PullRequest) := do
        Act.record (.updated updater.name repository wanted)
        updater.createPullRequests host repository wanted
      match (← create.attempt Failure.updateMessage?) with
      | .error message =>
        Act.log .error (opening ++ "Failed to update " ++ repository.fullName ++ ": " ++ message)
        return ([], 1)
      | .ok requests =>
        requests.forM fun request => Act.log .info ("  Created PR #" ++ request.id.plain ++ ": "
          ++ request.title.plain ++ " (" ++ request.url.plain ++ ")")
        return (requests, 0)
    else return ([], 0)

def updateAll (options : RunOptions) (config : Config) (host : Host σ) (repository : Repository) :
    List (Updater σ) → Act σ (List PullRequest × Nat)
  | [] => return ([], 0)
  | updater :: rest => do
    let (requests, errors) ← update options config updater host repository
    let (more, further) ← updateAll options config host repository rest
    return (requests ++ more, errors + further)

def run (registry : Registry σ) (updaters : List (Updater σ)) (config : Config)
    (options : RunOptions) : Act σ RunSummary := do
  let visit : Visitor σ (List PullRequest) := fun _ host repository gathered => do
    let (requests, errors) ← updateAll options config host repository updaters
    return (gathered ++ requests, errors)
  let tally ← visitProviders registry options visit 0 config.providers ⟨0, 0, []⟩
  Act.log .info ("Run complete: " ++ toString tally.repositories ++ " repos processed, "
    ++ toString tally.gathered.length ++ " PRs created, " ++ toString tally.errors ++ " errors")
  return ⟨tally.repositories, tally.gathered, tally.errors⟩

def needsUpgrade (current : String) (latest : Datum) : Except Failure Bool :=
  if !latest.isTruthy || latest = .text current then .ok false
  else Version.isNewerTag (.text current) latest

/-- The name of the bump to a latest version, empty when one of the two is no version. -/
def bumpName (current : String) (latest : Datum) : Except Failure String := do
  let bump ← Failure.ofVersion (Version.bump? current.toList latest.plain.toList)
  return (bump.map Version.Bump.name).getD ""

def status (repository : Repository) (dependency : Dependency) (tags : List Datum) :
    Except Failure DependencyStatus := do
  let latest := tags.head?.getD (.text "")
  let needed ← needsUpgrade dependency.current latest
  let bump ← if needed then bumpName dependency.current latest else pure ""
  return {
    organization := repository.organization
    repository := repository.name
    name := dependency.name
    source := String.ofList (Source.repositoryName dependency.source.toList)
    kind := dependency.kind.name
    current := dependency.current
    latest
    path := dependency.path
    needsUpgrade := needed
    bump }

/-- The statuses of scan results, with the memo that looking up their tags leaves. -/
def statuses (host : Host σ) (organization : String) (repository : Repository) :
    List ScanResult → TagMemo → Act σ (List DependencyStatus × TagMemo)
  | [], memo => return ([], memo)
  | result :: rest, memo => do
    let (tags, memo) ← Resolve.resolve host organization result.dependency.source memo
    let first ← Act.lift (status repository result.dependency tags)
    let (more, memo) ← statuses host organization repository rest memo
    return (first :: more, memo)

/-- What listing has gathered: the statuses, and the memo of tags with the provider and the
organization that it belongs to. -/
structure Listed where
  statuses : List DependencyStatus
  memo : Option (Nat × String × TagMemo)

/-- The memo for an organization of a provider: the one at hand if it belongs there, or an empty
one. -/
def Listed.memoFor (listed : Listed) (index : Nat) (organization : String) : TagMemo :=
  match listed.memo with
  | some (index', organization', memo) =>
    if index' = index ∧ organization' = organization then memo else TagMemo.empty
  | none => TagMemo.empty

def listRepository (outdatedOnly : Bool) : Visitor σ Listed := fun index host repository listed => do
  let scanned ← Update.scanRepository host repository
  if scanned.isEmpty then return (listed, 0)
  else
    let organization := repository.organization
    let (found, memo) ← statuses host organization repository scanned
      (listed.memoFor index organization)
    let shown := if outdatedOnly then found.filter (·.needsUpgrade) else found
    return (⟨listed.statuses ++ shown, some (index, organization, memo)⟩, 0)

/-- Lists the dependencies of every repository; changes nothing. -/
def list (registry : Registry σ) (config : Config) (options : RunOptions) (outdatedOnly : Bool) :
    Act σ DependencyReport := do
  let tally ← visitProviders registry options (listRepository outdatedOnly) 0 config.providers
    ⟨0, 0, ⟨[], none⟩⟩
  let dependencies := tally.gathered.statuses
  Act.log .info ("Listed " ++ toString dependencies.length ++ " dependencies in "
    ++ toString tally.repositories ++ " repositories, " ++ toString tally.errors ++ " errors")
  return ⟨tally.repositories, dependencies, tally.errors⟩

end Run

end InfraPins
