import InfraPins.Host.Shapes
import InfraPins.Text.Base64
import InfraPins.Version.Precedence

/-! Repositories on Azure DevOps. An organization holds projects and each project holds
repositories. A commit is pushed in one request. -/

namespace InfraPins.AzureDevOps

open Text Shapes

/-- The base of addresses, if none is given. -/
def defaultBase : String := "https://dev.azure.com"

/-- The version of the interface, as every request names it. -/
def version : String × String := ("api-version", "7.0")

/-- The header that gives the next page. -/
def continuationHeader : String := "x-ms-continuationtoken"

/-- What stands for the commit of a branch that does not exist yet. -/
def emptyObject : String := String.ofList (List.replicate 40 '0')

/-- The headers that every request has: the token as a password without a user. -/
def headers (token : String) : List (String × String) :=
  [("Authorization", "Basic " ++ String.ofList (Base64.encode (Utf8.encode (':' :: token.toList))))]

def fullBranch (branch : String) : String :=
  headsOpening ++ stripHeads branch

variable (client : Client)

/-- The entries of a listing from a page on, of at most a number of pages. Each page but the last
gives a token for the next. -/
def pages (path : String) (parameters : Parameters) : Nat → String → Act Wire (List Datum)
  | 0, _ => return []
  | more + 1, token => do
    let continuation := if token.isEmpty then [] else [("continuationToken", token)]
    let draft := Client.Draft.get path (some (parameters ++ [version] ++ continuation))
    let reply ← client.request draft
    let value ← client.decode draft reply
    let batch ← client.expecting "list" (Act.use (do (← value.field "value").elements))
    let next := reply.header continuationHeader
    if next.isEmpty then return batch
    else return batch ++ (← pages path parameters more next)

def collect (path : String) (parameters : Parameters) : Act Wire (List Datum) := do
  pages client path parameters (← Client.enough) ""

/-- A value as one segment of a path; it has to be a text. -/
def segmentOf (value : Datum) : Except Misuse String :=
  value.textOperand.map Percent.segment

/-- The path of a repository: by its id, or by its name when it has none. -/
def repositoryPath (repository : Repository) : Act Wire String := Act.use do
  let project ← if repository.project.isTruthy then
      (segmentOf repository.project).map ("/" ++ ·)
    else pure ""
  let id ← segmentOf (repository.id.orElse repository.name)
  return "/" ++ Percent.segment repository.organization ++ project ++ "/_apis/git/repositories/" ++ id

/-- The parameters that choose the default branch of a repository. -/
def onDefaultBranch (repository : Repository) : Act Wire Parameters := do
  return [("versionDescriptor.version", ← defaultBranch repository),
    ("versionDescriptor.versionType", "branch")]

/-- The repository that an entry of a project's listing describes. -/
def repositoryOf (organization : String) (project item : Datum) : Except Misuse Repository := do
  let id ← item.fieldOr "id" (.text "")
  let name ← item.field "name"
  let branch ← ((← item.fieldOr "defaultBranch" .null).orElse (.text "main")).textMember
  let remoteUrl ← item.fieldOr "remoteUrl" (.text "")
  let sshUrl ← item.fieldOr "sshUrl" (.text "")
  return {
    name
    organization
    id
    defaultBranch := .text (stripHeads branch)
    remoteUrl
    sshUrl
    hostName := client.name
    project }

/-- The repository that an entry describes, unless it is disabled. -/
def enabledRepository? (organization : String) (project item : Datum) :
    Except Misuse (Option Repository) := do
  if (← item.fieldOr "isDisabled" (.bool false)).isTruthy then return none
  else return some (← repositoryOf client organization project item)

def projectRepositories (organization : String) (project : Datum) : Act Wire (List Repository) := do
  let name ← client.expecting "project list" (Act.use (project.field "name"))
  let segment ← Act.use (segmentOf name)
  let items ← collect client
    ("/" ++ Percent.segment organization ++ "/" ++ segment ++ "/_apis/git/repositories") []
  client.expecting "repository list" do
    return (← Act.use (items.mapM (enabledRepository? client organization name))).filterMap id

/-- The repositories of every project of an organization. -/
def discover (organization : String) : Act Wire (List Repository) := do
  let projects ← collect client ("/" ++ Percent.segment organization ++ "/_apis/projects") []
  return (← projects.mapM (projectRepositories client organization)).flatten

/-- A path without the slashes at its start. -/
def withoutRoot (path : String) : String :=
  String.ofList (path.toList.dropWhile (· == '/'))

/-- The entry that an item describes, unless it is the root or its path has another suffix. -/
def entryOfItem? (suffix : String) (item : Datum) : Except Misuse (Option TreeEntry) := do
  let path := withoutRoot (← (← item.field "path").textMember)
  if path.isEmpty || !suffix.toList.isSuffixOf path.toList then return none
  else
    let folder ← item.fieldOr "isFolder" (.bool false)
    let type ← item.fieldOr "gitObjectType" .null
    let objectId ← item.fieldOr "objectId" (.text "")
    return some {
      path := .text path
      objectId
      isDirectory := folder.orElse (.bool (type = .text "tree")) }

/-- The files of a repository whose path ends with a suffix. -/
def listFiles (repository : Repository) (suffix : String) : Act Wire (List TreeEntry) := do
  let path ← repositoryPath repository
  let branch ← onDefaultBranch repository
  let items ← collect client (path ++ "/items") ([("recursionLevel", "Full")] ++ branch)
  client.expecting "item list" do
    return (← Act.use (items.mapM (entryOfItem? suffix))).filterMap id

def rooted (path : String) : String :=
  "/" ++ withoutRoot path

def fetchFile (repository : Repository) (path : String) : Act Wire String := do
  let place ← repositoryPath repository
  let branch ← onDefaultBranch repository
  let reply ← client.request (.get (place ++ "/items")
    (some ([("path", rooted path), ("$format", "octetStream"), version] ++ branch)))
  return reply.body

/-- What the full name of a tag starts with. -/
def tagsOpening : String := "refs/tags/"

def tagOf (reference : Datum) : Except Misuse Datum := do
  let name ← (← reference.field "name").textMember
  return .text (match after? tagsOpening.toList name.toList with
    | some rest => String.ofList rest
    | none => name)

/-- The tags of a repository, newest first. -/
def listTags (repository : Repository) : Act Wire (List Datum) := do
  let path ← repositoryPath repository
  let references ← collect client (path ++ "/refs") [("filter", "tags/")]
  client.expecting "tag list" do
    let names ← Act.use (references.mapM tagOf)
    Act.lift (Version.sortTags names)

def hasFile (repository : Repository) (path : String) : Act Wire Bool := do
  let place ← repositoryPath repository
  let branch ← onDefaultBranch repository
  client.exist (.get (place ++ "/items") (some ([("path", rooted path), version] ++ branch)))

def commitOf? (name : String) : List Datum → Except Misuse (Option Datum)
  | [] => .ok none
  | reference :: rest => do
    if (← reference.field "name") = .text name then return some (← reference.field "objectId")
    else commitOf? name rest

def branchHead (repository : Repository) (branch : Datum) : Act Wire Datum := do
  let short ← branchOf branch
  let path ← repositoryPath repository
  let references ← collect client (path ++ "/refs") [("filter", "heads/" ++ short)]
  match (← client.expecting "branch" (Act.use (commitOf? (headsOpening ++ short) references))) with
  | some commit => return commit
  | none => Act.fail (.host (client.name ++ ": branch " ++ headsOpening ++ short ++ " not found in "
      ++ repository.fullName))

def pushedChange (change : FileChange) : Datum :=
  .ofFields [("changeType", .text change.changeType),
    ("item", .ofFields [("path", .text (rooted change.path))]),
    ("newContent", .ofFields [
      ("content", .text (String.ofList (Base64.encode (Utf8.encode change.content.toList)))),
      ("contentType", .text "base64encoded")])]

/-- The fields of a push that creates a branch with one commit on top of another. -/
def push (branch : BranchInput) (parent : Datum) : List (String × Datum) :=
  [("refUpdates", .list [.ofFields [("name", .text (fullBranch branch.branchName)),
      ("oldObjectId", .text emptyObject)]]),
    ("commits", .list [.ofFields [("comment", .text branch.commitMessage),
      ("parents", .list [parent]), ("changes", .list (branch.changes.map pushedChange))]])]

def createBranch (repository : Repository) (branch : BranchInput) : Act Wire Unit := do
  let parent ← branchHead client repository branch.baseBranch
  let path ← repositoryPath repository
  let _ ← client.request (.post (path ++ "/pushes") (push branch parent) (some [version]))
  return ()

/-- Asks for a pull request to be completed by its creator once it can be. -/
def enableAutoComplete (repository : Repository) (id creator : Datum) : Act Wire Unit := do
  let opening := "Could not enable auto-complete for PR " ++ id.plain ++ ": "
  if creator.isTruthy then
    let path ← repositoryPath repository
    let draft : Client.Draft := {
      method := "PATCH"
      path := path ++ "/pullrequests/" ++ id.plain
      parameters := some [version]
      body := some (.ofFields [("autoCompleteSetBy", .ofFields [("id", creator)])]) }
    match (← (client.request draft).attempt Failure.hostMessage?) with
    | .ok _ => return ()
    | .error message => Act.log .warning (opening ++ message)
  else Act.log .warning (opening ++ "no creator id")

/-- The id of a pull request and the id of its creator, as a reply gives them. -/
def identities (reply : Datum) : Except Misuse (Datum × Datum) := do
  let id ← reply.field "pullRequestId"
  let creator ← reply.fieldOr "createdBy" .null
  return (id, ← (creator.orElse (.object [])).fieldOr "id" (.text ""))

/-- The address of a pull request in a browser, empty when that of the repository is not known. -/
def webUrl (repository : Repository) (id : Datum) : String :=
  if repository.remoteUrl.isTruthy then
    repository.remoteUrl.plain ++ "/pullrequest/" ++ id.plain
  else ""

def openPullRequest (repository : Repository) (input : PullRequestInput) :
    Act Wire PullRequest := do
  let path ← repositoryPath repository
  let target ← branchOf input.targetBranch
  let reply ← client.requestValue (.post (path ++ "/pullrequests")
    [("sourceRefName", .text (fullBranch input.sourceBranch)),
      ("targetRefName", .text (headsOpening ++ target)), ("title", .text input.title),
      ("description", .text input.description)]
    (some [version]))
  let (id, creator) ← client.expecting "pull request" (Act.use (identities reply))
  if input.autoComplete then enableAutoComplete client repository id creator else pure ()
  let (title, url, status) ← Act.use (pullRequestFields input "url" "status" "active" reply)
  return { id, title, url := (Datum.text (webUrl repository id)).orElse url, status }

def lengthOf (value : Datum) : Except Misuse Nat :=
  value.elements.map List.length

def pullRequestExists (repository : Repository) (branch : String) : Act Wire Bool := do
  let path ← repositoryPath repository
  let reply ← client.requestValue (.get (path ++ "/pullrequests")
    (some [("searchCriteria.sourceRefName", fullBranch branch), ("searchCriteria.status", "active"),
      version]))
  client.expecting "pull request list" (Act.use do
    return decide (0 < (← lengthOf (← reply.field "value"))))

def host : Host Wire where
  name := client.name
  discover := discover client
  listFiles := listFiles client
  fetchFile := fetchFile client
  listTags := listTags client
  hasFile := hasFile client
  createBranch := createBranch client
  openPullRequest := openPullRequest client
  pullRequestExists := pullRequestExists client
  close := pure ()

end InfraPins.AzureDevOps
