import InfraPins.Changelog
import InfraPins.Scan.Basic
import InfraPins.Upgrade.Describe
import InfraPins.Upgrade.Patch
import InfraPins.Upgrade.Plan
import InfraPins.Upgrade.Resolve

/-! The update of one repository: its files are scanned, upgrades are planned and applied, and all
of them go into one branch and one pull request. Everything is done through the hosting service. -/

namespace InfraPins.Update

variable {σ : Type} (host : Host σ)

def updaterName : String := "terraform"

def scannedSuffixes : List (String × FileFormat) :=
  [(".tf", .terraform), (".hcl", .terragrunt)]

def log (level : Level) (text : String) : Act σ Unit :=
  Act.log level ("[terraform] " ++ text)

/-- Whether a repository has a file with one of some suffixes. A listing that fails finds none. -/
def detectSuffixes (repository : Repository) : List (String × FileFormat) → Act σ Bool
  | [] => return false
  | (suffix, _) :: rest => do
    match (← (host.askFiles repository suffix).attempt Failure.hostMessage?) with
    | .ok [] => detectSuffixes repository rest
    | .ok _ => return true
    | .error message =>
      log .debug ("Could not list " ++ suffix ++ " files in " ++ repository.fullName ++ ": "
        ++ message)
      detectSuffixes repository rest

/-- Whether a repository has a file that can be scanned. -/
def detect (repository : Repository) : Act σ Bool :=
  detectSuffixes host repository scannedSuffixes

/-- The scan of one file's content, logging why a document was not trusted. -/
def scanContent (content path : String) (format : FileFormat) : Act σ (List ScanResult) := do
  let dependencies ← (← Act.lift (Scan.report content path format)).logged
  return dependencies.map (⟨·, content⟩)

/-- The scan of one entry of a tree. A directory and a file that cannot be read hold nothing. -/
def scanEntry (repository : Repository) (format : FileFormat) (entry : TreeEntry) :
    Act σ (List ScanResult) := do
  if entry.isDirectory.isTruthy then return []
  else
    let path ← Act.use entry.path.textOperand
    match (← (host.askContent repository path).attempt Failure.hostMessage?) with
    | .ok content => scanContent content path format
    | .error message =>
      log .warning ("Failed to read " ++ path ++ ": " ++ message)
      return []

def scanSuffix (repository : Repository) (suffix : String × FileFormat) :
    Act σ (List ScanResult) := do
  match (← (host.askFiles repository suffix.1).attempt Failure.hostMessage?) with
  | .ok entries => return (← entries.mapM (scanEntry host repository suffix.2)).flatten
  | .error message =>
    log .warning ("Failed to list " ++ suffix.1 ++ " files: " ++ message)
    return []

def scanRepository (repository : Repository) : Act σ (List ScanResult) := do
  return (← scannedSuffixes.mapM (scanSuffix host repository)).flatten

def plan (repository : Repository) : Act σ (List UpgradeTask) := do
  let scanned ← scanRepository host repository
  if scanned.isEmpty then return []
  else
    let resolve := Resolve.resolveWithMemo host repository.organization
    let (answers, _) ← (Plan.askAll resolve [] scanned).run TagMemo.empty
    Act.lift (Plan.tasks answers scanned)

/-- File changes with an edit of the changelog, when the repository keeps one that takes entries. -/
def withChangelog (repository : Repository) (tasks : List UpgradeTask)
    (changes : List FileChange) : Act σ (List FileChange) := do
  let read : Act σ (Option String) := do
    if (← host.askHasFile repository Changelog.path) then
      return some (← host.askContent repository Changelog.path)
    else return none
  match (← read.attempt Failure.hostMessage?) with
  | .ok (some content) =>
    let entries := (Describe.changelogEntries tasks).map String.toList
    let modified := String.ofList (Changelog.insertEntries content.toList entries)
    if modified = content then return changes
    else return changes ++ [{ path := Changelog.path, content := modified }]
  | .ok none => return changes
  | .error message =>
    log .warning ("Failed to read " ++ Changelog.path ++ ": " ++ message)
    return changes

/-- The branch that an update goes into: the one that the options name, or the default branch. -/
def targetBranch (repository : Repository) (options : UpdateOptions) : Datum :=
  if options.targetBranch.isEmpty then repository.defaultBranch else .text options.targetBranch

/-- Does what a host may refuse, as an update's own failure behind some words. -/
def publishing (opening : String) (act : Act σ α) : Act σ α := do
  match (← act.attempt Failure.hostMessage?) with
  | .ok value => return value
  | .error message => Act.fail (.update (opening ++ message))

/-- Whether there is an open pull request for a branch. A lookup that fails finds none. -/
def pullRequestOpen (repository : Repository) (branch : String) : Act σ Bool := do
  match (← (host.askPullRequestExists repository branch).attempt Failure.hostMessage?) with
  | .ok found => return found
  | .error message =>
    log .warning ("Failed to check existing PRs: " ++ message)
    return false

def publish (repository : Repository) (options : UpdateOptions) (tasks : List UpgradeTask)
    (changes : List FileChange) : Act σ (List PullRequest) := do
  let branchName := Describe.branchName tasks
  if (← pullRequestOpen host repository branchName) then
    log .info ("PR already exists for branch " ++ Text.quoted branchName ++ ", skipping")
    return []
  else
    let changes ← withChangelog host repository tasks changes
    let target := targetBranch repository options
    publishing ("failed to create branch " ++ branchName ++ ": ")
      (host.askBranch repository {
        branchName
        baseBranch := target
        changes
        commitMessage := Describe.commitMessage tasks })
    let request ← publishing "failed to create PR: "
      (host.askPullRequest repository {
        sourceBranch := branchName
        targetBranch := target
        title := Describe.pullRequestTitle tasks
        description := Describe.pullRequestDescription tasks
        autoComplete := options.autoComplete })
    log .info ("Created PR #" ++ request.id.plain ++ " for " ++ repository.fullName ++ ": "
      ++ request.url.plain)
    return [request]

/-- Applies planned tasks and publishes those that could be applied. -/
def applyAndPublish (repository : Repository) (options : UpdateOptions)
    (tasks : List UpgradeTask) : Act σ (List PullRequest) := do
  let batch := Patch.applyAll tasks
  batch.records.forM fun entry => Act.log entry.1 entry.2
  if batch.applied.isEmpty then
    log .warning (repository.fullName ++ ": no planned upgrade could be applied, skipping PR")
    return []
  else publish host repository options batch.applied batch.changes

def dryRunText (task : UpgradeTask) : String :=
  "[DRY RUN] Would upgrade " ++ Describe.shortName task ++ ": " ++ task.dependency.current ++ " -> "
    ++ task.newVersion

/-- What an update does with its plan: a dry run only says what it would do. -/
def proceed (repository : Repository) (options : UpdateOptions) (tasks : List UpgradeTask) :
    Act σ (List PullRequest) := do
  if tasks.isEmpty then
    log .info (repository.fullName ++ ": all Terraform dependencies up to date")
    return []
  else
    log .info (repository.fullName ++ ": found " ++ toString tasks.length
      ++ " dependencies to upgrade")
    if options.dryRun then
      tasks.forM fun task => log .info (dryRunText task)
      return []
    else applyAndPublish host repository options tasks

/-- Brings a repository up to date with one pull request. -/
def createPullRequests (repository : Repository) (options : UpdateOptions) :
    Act σ (List PullRequest) := do
  log .info ("Scanning " ++ repository.fullName ++ " for Terraform dependencies")
  proceed host repository options (← plan host repository)

end InfraPins.Update
