import InfraPins.Dependency
import InfraPins.Source

namespace InfraPins.Describe

/-- Above this many upgrades a pull request gives counts instead of a table. -/
def maxDetailed : Nat := 5

/-- The last line of a description. -/
def footer : String := "*This PR was automatically created by autoupdate*"

def shortName (task : UpgradeTask) : String :=
  String.ofList (Source.repositoryName task.dependency.source.toList)

def branchName (tasks : List UpgradeTask) : String :=
  match tasks with
  | [task] => "chore/upgrade-" ++ shortName task ++ "-" ++ task.newVersion
  | tasks => "chore/upgrade-" ++ toString tasks.length ++ "-dependencies"

/-- The subject line for several tasks. -/
def batchSubject (tasks : List UpgradeTask) : String :=
  "chore(deps): upgraded " ++ toString tasks.length ++ " Terraform dependencies"

def commitMessage (tasks : List UpgradeTask) : String :=
  match tasks with
  | [task] => "chore(deps): upgraded `" ++ shortName task ++ "` from `" ++ task.dependency.current
      ++ "` to `" ++ task.newVersion ++ "`"
  | tasks => batchSubject tasks

def pullRequestTitle (tasks : List UpgradeTask) : String :=
  match tasks with
  | [task] => "chore(deps): upgraded `" ++ shortName task ++ "` to `" ++ task.newVersion ++ "`"
  | tasks => batchSubject tasks

def imageCount (tasks : List UpgradeTask) : Nat :=
  tasks.countP fun task => task.kind = .image

def moduleCount (tasks : List UpgradeTask) : Nat :=
  tasks.length - imageCount tasks

def tableRow (task : UpgradeTask) : String :=
  "| " ++ shortName task ++ " | " ++ task.dependency.kind.name ++ " | " ++ task.dependency.current
    ++ " | " ++ task.newVersion ++ " | " ++ task.dependency.path ++ " |"

/-- The lines that say what is upgraded: a table for a few tasks, counts for many. -/
def summaryLines (tasks : List UpgradeTask) : List String :=
  if tasks.length ≤ maxDetailed then
    ["This PR upgrades the following Terraform dependencies:", "",
      "| Name | Type | Current Version | New Version | File |",
      "|------|------|-----------------|-------------|------|"] ++ tasks.map tableRow
  else
    ["This PR upgrades **" ++ toString tasks.length ++ "** Terraform dependencies:", ""]
      ++ (if moduleCount tasks = 0 then []
          else ["- **" ++ toString (moduleCount tasks) ++ "** module upgrades"])
      ++ (if imageCount tasks = 0 then []
          else ["- **" ++ toString (imageCount tasks) ++ "** container image upgrades"])

def pullRequestDescription (tasks : List UpgradeTask) : String :=
  "\n".intercalate (["## Summary", ""] ++ summaryLines tasks ++ ["", "---", footer, ""])

def changelogLabel : DependencyKind → String
  | .module => "Terraform module"
  | .image => "container image"

def changelogEntry (task : UpgradeTask) : String :=
  "- changed the " ++ changelogLabel task.kind ++ " " ++ shortName task ++ " from "
    ++ task.dependency.current ++ " to " ++ task.newVersion

def changelogEntries (tasks : List UpgradeTask) : List String :=
  tasks.map changelogEntry

end InfraPins.Describe
