import InfraPins.Host.Shapes
import InfraPins.Version.Precedence

/-! Repositories on GitHub. A commit is made out of its parts: a tree with the changed files, the
commit of that tree, and last the reference that makes it a branch. -/

namespace InfraPins.GitHub

open Text Shapes

/-- The number of entries of a full page. -/
def perPage : Nat := 100

/-- The base of addresses, if none is given. -/
def defaultBase : String := "https://api.github.com"

def headers (token : String) : List (String × String) :=
  [("Authorization", "Bearer " ++ token), ("Accept", "application/vnd.github+json"),
    ("X-GitHub-Api-Version", "2022-11-28")]

variable (client : Client)

/-- The entries of a listing from a page on, of at most a number of pages. A page that is not full
is the last. -/
def pages (path : String) : Nat → Nat → Act Wire (List Datum)
  | 0, _ => return []
  | more + 1, page => do
    let batch ← client.requestList
      (.get path (some [("per_page", toString perPage), ("page", toString page)]))
    if batch.length < perPage then return batch
    else return batch ++ (← pages path more (page + 1))

def paginate (path : String) : Act Wire (List Datum) := do
  pages client path (← Client.enough) 1

def repositoryPath (repository : Repository) : String :=
  "/repos/" ++ repository.organization ++ "/" ++ repository.name.plain

/-- The repository that an entry of a listing describes. -/
def repositoryOf (organization : String) (item : Datum) : Except Misuse Repository := do
  let id ← item.fieldOr "id" (.text "")
  let name ← item.field "name"
  let branch ← item.fieldOr "default_branch" .null
  let remoteUrl ← item.fieldOr "clone_url" (.text "")
  let sshUrl ← item.fieldOr "ssh_url" (.text "")
  return {
    name
    organization
    id := .text id.plain
    defaultBranch := branch.orElse (.text "main")
    remoteUrl
    sshUrl
    hostName := client.name }

/-- The repository that an entry describes, unless it is archived. -/
def activeRepository? (organization : String) (item : Datum) :
    Except Misuse (Option Repository) := do
  if (← item.fieldOr "archived" (.bool false)).isTruthy then return none
  else return some (← repositoryOf client organization item)

/-- The repositories of an organization, or of a user when there is no such organization. -/
def discover (organization : String) : Act Wire (List Repository) := do
  let listed ← (paginate client ("/orgs/" ++ organization ++ "/repos")).attempt Failure.hostMessage?
  let items ← match listed with
    | .ok items => pure items
    | .error _ => paginate client ("/users/" ++ organization ++ "/repos")
  client.expecting "repository list" do
    return (← Act.use (items.mapM (activeRepository? client organization))).filterMap id

/-- The files of a repository whose path ends with a suffix. -/
def listFiles (repository : Repository) (suffix : String) : Act Wire (List TreeEntry) := do
  let branch ← defaultBranch repository
  let tree ← client.requestValue (.get
    (repositoryPath repository ++ "/git/trees/" ++ Percent.segment branch)
    (some [("recursive", "1")]))
  client.expecting "tree" do
    if (← Act.use (tree.fieldOr "truncated" .null)).isTruthy then
      Act.log .warning ("Tree listing for " ++ repository.fullName ++ " was truncated by GitHub")
    else pure ()
    let nodes ← Act.use (tree.fieldOr "tree" (.list []))
    let nodes ← Act.use nodes.elements
    return (← Act.use (nodes.mapM (entryWithSuffix? "sha" suffix))).filterMap id

def filePath (repository : Repository) (path : String) : String :=
  repositoryPath repository ++ "/contents/" ++ Percent.segments path

def fetchFile (repository : Repository) (path : String) : Act Wire String := do
  let branch ← defaultBranch repository
  let reply ← client.request {
    Client.Draft.get (filePath repository path) (some [("ref", branch)]) with
    headers := [("Accept", "application/vnd.github.raw+json")] }
  return reply.body

/-- The tags of a repository, newest first. -/
def listTags (repository : Repository) : Act Wire (List Datum) := do
  let items ← paginate client (repositoryPath repository ++ "/tags")
  client.expecting "tag list" do
    let names ← Act.use (items.mapM (·.field "name"))
    Act.lift (Version.sortTags names)

def hasFile (repository : Repository) (path : String) : Act Wire Bool := do
  let branch ← defaultBranch repository
  client.exist (.get (filePath repository path) (some [("ref", branch)]))

def treeEntry (change : FileChange) : Datum :=
  .ofFields [("path", .text change.path), ("mode", .text "100644"), ("type", .text "blob"),
    ("content", .text change.content)]

def createBranch (repository : Repository) (branch : BranchInput) : Act Wire Unit := do
  let base ← branchOf branch.baseBranch
  let path := repositoryPath repository
  client.expecting "git data" do
    let reference ← client.requestValue
      (.get (path ++ "/git/ref/heads/" ++ Percent.segment base) none)
    let parent ← Act.use (do (← reference.field "object").field "sha")
    let baseCommit ← client.requestValue (.get (path ++ "/git/commits/" ++ parent.plain) none)
    let baseTree ← Act.use (do (← baseCommit.field "tree").field "sha")
    let tree ← client.requestValue (.post (path ++ "/git/trees")
      [("base_tree", baseTree), ("tree", .list (branch.changes.map treeEntry))])
    let treeId ← Act.use (tree.field "sha")
    let commit ← client.requestValue (.post (path ++ "/git/commits")
      [("message", .text branch.commitMessage), ("tree", treeId), ("parents", .list [parent])])
    let commitId ← Act.use (commit.field "sha")
    let _ ← client.request (.post (path ++ "/git/refs")
      [("ref", .text (headsOpening ++ stripHeads branch.branchName)), ("sha", commitId)])
    return ()

def pullRequestOf (input : PullRequestInput) (reply : Datum) : Except Misuse PullRequest := do
  let id ← reply.field "number"
  let (title, url, status) ← pullRequestFields input "html_url" "state" "open" reply
  return { id, title, url, status }

def openPullRequest (repository : Repository) (input : PullRequestInput) :
    Act Wire PullRequest := do
  let target ← branchOf input.targetBranch
  let reply ← client.requestValue (.post (repositoryPath repository ++ "/pulls")
    [("title", .text input.title), ("head", .text (stripHeads input.sourceBranch)),
      ("base", .text target), ("body", .text input.description)])
  if input.autoComplete then
    Act.log .info ("Auto-merge is not enabled automatically on GitHub (" ++ repository.fullName ++ ")")
  else pure ()
  client.expecting "pull request" (Act.use (pullRequestOf input reply))

def pullRequestExists (repository : Repository) (branch : String) : Act Wire Bool := do
  let found ← client.requestList (.get (repositoryPath repository ++ "/pulls")
    (some [("state", "open"), ("head", repository.organization ++ ":" ++ stripHeads branch)]))
  return !found.isEmpty

def host : Host Wire where
  name := client.name
  discover := discover client
  listFiles := listFiles client
  fetchFile := fetchFile client
  listTags := listTags client
  hasFile := hasFile client
  createBranch := createBranch client
  openPullRequest := openPullRequest client
  pullRequestExists := pullRequestExists client
  close := pure ()

end InfraPins.GitHub
