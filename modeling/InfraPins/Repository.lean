import InfraPins.Datum.Text
import InfraPins.Text.Search

/-! Repositories on a hosting service, their files, and what an update puts into them. A field that
is taken from a reply keeps the value that the reply gave, whatever its kind. -/

namespace InfraPins

/-- A Git repository on a hosting service. A project groups repositories within an organization. -/
structure Repository where
  name : Datum
  organization : String
  id : Datum := .text ""
  defaultBranch : Datum := .text "main"
  remoteUrl : Datum := .text ""
  sshUrl : Datum := .text ""
  hostName : String := ""
  project : Datum := .text ""
  deriving DecidableEq

def Repository.fullName (repository : Repository) : String :=
  repository.organization ++ "/" ++ repository.name.plain

structure TreeEntry where
  path : Datum
  objectId : Datum := .text ""
  isDirectory : Datum := .bool false
  deriving DecidableEq

/-- A file with its whole new content, for a commit. -/
structure FileChange where
  path : String
  content : String
  changeType : String := "edit"
  deriving DecidableEq

/-- A branch to create, with one commit. -/
structure BranchInput where
  branchName : String
  baseBranch : Datum
  changes : List FileChange
  commitMessage : String
  deriving DecidableEq

structure PullRequestInput where
  sourceBranch : String
  targetBranch : Datum
  title : String
  description : String
  autoComplete : Bool
  deriving DecidableEq

/-- A pull request that a hosting service reports. -/
structure PullRequest where
  id : Datum
  title : Datum
  url : Datum
  status : Datum
  deriving DecidableEq

/-- How an updater is to work. -/
structure UpdateOptions where
  dryRun : Bool := false
  verbose : Bool := false
  targetBranch : String := ""
  autoComplete : Bool := false
  deriving DecidableEq

/-- The opening of a full branch name. -/
def headsOpening : String := "refs/heads/"

/-- A branch name without the opening `refs/heads/`. -/
def stripHeads (branch : String) : String :=
  match Text.after? headsOpening.toList branch.toList with
  | some rest => String.ofList rest
  | none => branch

end InfraPins
