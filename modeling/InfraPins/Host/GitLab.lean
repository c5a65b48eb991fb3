import InfraPins.Host.Shapes
import InfraPins.Version.Precedence

/-! Projects on GitLab. A group is searched with its subgroups; a name that is no group stands for
the projects that the token's user owns. -/

namespace InfraPins.GitLab

open Text Shapes

/-- The number of entries of a full page. -/
def perPage : Nat := 100

/-- The base of addresses, if none is given. -/
def defaultBase : String := "https://gitlab.com/api/v4"

def nextPageHeader : String := "X-Next-Page"

def headers (token : String) : List (String × String) :=
  [("PRIVATE-TOKEN", token)]

variable (client : Client)

/-- The entries of a listing from a page on, of at most a number of pages. Each page gives the next
one, and the last one gives none. -/
def pages (path : String) (parameters : Parameters) : Nat → String → Act Wire (List Datum)
  | 0, _ => return []
  | more + 1, page => do
    let draft := Client.Draft.get path
      (some (parameters ++ [("per_page", toString perPage), ("page", page)]))
    let reply ← client.request draft
    let batch ← client.decodeList draft reply
    let next := reply.header nextPageHeader
    if next.isEmpty then return batch
    else return batch ++ (← pages path parameters more next)

def paginate (path : String) (parameters : Parameters) : Act Wire (List Datum) := do
  pages client path parameters (← Client.enough) "1"

def projectPath (repository : Repository) : String :=
  "/projects/" ++ Percent.segment repository.fullName

def repositoryOf (organization : String) (project : Datum) : Except Misuse Repository := do
  let id ← project.fieldOr "id" (.text "")
  let name ← project.field "path"
  let branch ← project.fieldOr "default_branch" .null
  let remoteUrl ← project.fieldOr "http_url_to_repo" (.text "")
  let sshUrl ← project.fieldOr "ssh_url_to_repo" (.text "")
  return {
    name
    organization
    id := .text id.plain
    defaultBranch := branch.orElse (.text "main")
    remoteUrl
    sshUrl
    hostName := client.name }

/-- The projects of a group and its subgroups, or those that the user owns when the group cannot be
listed. -/
def discover (organization : String) : Act Wire (List Repository) := do
  let listed ← (paginate client ("/groups/" ++ Percent.segment organization ++ "/projects")
    [("include_subgroups", "true"), ("archived", "false")]).attempt Failure.hostMessage?
  let projects ← match listed with
    | .ok projects => pure projects
    | .error _ => do
      Act.log .debug (organization ++ " is not a GitLab group, listing owned projects")
      paginate client "/projects" [("owned", "true")]
  client.expecting "project list" (Act.use (projects.mapM (repositoryOf client organization)))

/-- The files of a repository whose path ends with a suffix. -/
def listFiles (repository : Repository) (suffix : String) : Act Wire (List TreeEntry) := do
  let branch ← defaultBranch repository
  let nodes ← paginate client (projectPath repository ++ "/repository/tree")
    [("recursive", "true"), ("ref", branch)]
  client.expecting "tree" do
    return (← Act.use (nodes.mapM (entryWithSuffix? "id" suffix))).filterMap id

def filePath (repository : Repository) (path : String) : String :=
  projectPath repository ++ "/repository/files/" ++ Percent.segment path

def fetchFile (repository : Repository) (path : String) : Act Wire String := do
  let branch ← defaultBranch repository
  let reply ← client.request (.get (filePath repository path ++ "/raw") (some [("ref", branch)]))
  return reply.body

/-- The tags of a repository, newest first. -/
def listTags (repository : Repository) : Act Wire (List Datum) := do
  let items ← paginate client (projectPath repository ++ "/repository/tags") []
  client.expecting "tag list" do
    let names ← Act.use (items.mapM (·.field "name"))
    Act.lift (Version.sortTags names)

def hasFile (repository : Repository) (path : String) : Act Wire Bool := do
  let branch ← defaultBranch repository
  client.exist (.get (filePath repository path) (some [("ref", branch)]))

def action (change : FileChange) : Datum :=
  .ofFields [("action", .text "update"), ("file_path", .text change.path),
    ("content", .text change.content)]

def createBranch (repository : Repository) (branch : BranchInput) : Act Wire Unit := do
  let base ← branchOf branch.baseBranch
  let _ ← client.request (.post (projectPath repository ++ "/repository/commits")
    [("branch", .text (stripHeads branch.branchName)), ("start_branch", .text base),
      ("commit_message", .text branch.commitMessage),
      ("actions", .list (branch.changes.map action))])
  return ()

/-- Asks for a merge request to be merged once its pipeline succeeds. -/
def enableAutoMerge (repository : Repository) (id : Datum) : Act Wire Unit := do
  let draft : Client.Draft := {
    method := "PUT"
    path := projectPath repository ++ "/merge_requests/" ++ id.plain ++ "/merge"
    body := some (.ofFields [("merge_when_pipeline_succeeds", .bool true)]) }
  match (← (client.request draft).attempt Failure.hostMessage?) with
  | .ok _ => return ()
  | .error message =>
    Act.log .warning ("Could not enable auto-merge for !" ++ id.plain ++ ": " ++ message)

def openPullRequest (repository : Repository) (input : PullRequestInput) :
    Act Wire PullRequest := do
  let target ← branchOf input.targetBranch
  let reply ← client.requestValue (.post (projectPath repository ++ "/merge_requests")
    [("source_branch", .text (stripHeads input.sourceBranch)), ("target_branch", .text target),
      ("title", .text input.title), ("description", .text input.description),
      ("remove_source_branch", .bool true)])
  let id ← client.expecting "merge request" (Act.use (reply.field "iid"))
  if input.autoComplete then enableAutoMerge client repository id else pure ()
  let (title, url, status) ← Act.use (pullRequestFields input "web_url" "state" "opened" reply)
  return { id, title, url, status }

/-- Whether an open merge request has a branch as its source. -/
def pullRequestExists (repository : Repository) (branch : String) : Act Wire Bool := do
  let found ← client.requestList (.get (projectPath repository ++ "/merge_requests")
    (some [("state", "opened"), ("source_branch", stripHeads branch)]))
  return !found.isEmpty

def host : Host Wire where
  name := client.name
  discover := discover client
  listFiles := listFiles client
  fetchFile := fetchFile client
  listTags := listTags client
  hasFile := hasFile client
  createBranch := createBranch client
  openPullRequest := openPullRequest client
  pullRequestExists := pullRequestExists client
  close := pure ()

end InfraPins.GitLab
