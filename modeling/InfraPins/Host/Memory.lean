import InfraPins.Host.Basic
import InfraPins.Datum.Access

/-! A hosting service in memory: organizations with their repositories, and what each repository
holds and refuses. Several such services share one state, each under its number. -/

namespace InfraPins

/-- A file of a repository in memory. A file without content cannot be read. -/
structure ShelvedFile where
  path : String
  content : Option String
  isDirectory : Bool
  deriving DecidableEq

/-- What a repository in memory holds, and which operations on it fail. Tags and the answer to
whether a pull request exists are absent when asking for them fails. -/
structure Shelf where
  files : List ShelvedFile := []
  failingSuffixes : List String := []
  tags : Option (List Datum) := some []
  fileLookupFails : Bool := false
  branchFails : Bool := false
  pullRequestFails : Bool := false
  pullRequestExists : Option Bool := some false
  deriving DecidableEq

/-- A hosting service in memory. The listing of an organization is absent when it fails. -/
structure Memory where
  organizations : List (String × Option (List Repository)) := []
  shelves : List (String × Shelf) := []
  pullRequests : Nat := 0
  deriving DecidableEq

namespace Memory

/-- What a repository holds; an unknown one holds nothing and refuses nothing. -/
def shelf (memory : Memory) (repository : Repository) : Shelf :=
  (memory.shelves.lookup repository.fullName).getD {}

def numbered (number : Nat) (memories : List Memory) : Memory :=
  memories[number]?.getD {}

/-- An operation that reads the service of a number. -/
def ask (number : Nat) (answer : Memory → Except Failure α) : Act (List Memory) α :=
  fun memories => ⟨answer (numbered number memories), [], memories⟩

/-- An answer, or a reported failure in place of a missing one. -/
def required (message : String) (answer : Option α) : Except Failure α :=
  match answer with
  | some value => .ok value
  | none => .error (.host message)

/-- The repositories of an organization; an unknown one has none. -/
def repositories (memory : Memory) (organization : String) : Except Failure (List Repository) :=
  required "discover failed" ((memory.organizations.lookup organization).getD (some []))

/-- The entries whose path ends with a suffix. -/
def entries (shelf : Shelf) (suffix : String) : Except Failure (List TreeEntry) :=
  if shelf.failingSuffixes.contains suffix then .error (.host "list failed")
  else
    let files := shelf.files.filter fun file => suffix.toList.isSuffixOf file.path.toList
    .ok (files.map fun file =>
      { path := .text file.path, isDirectory := .bool file.isDirectory })

def content (shelf : Shelf) (path : String) : Except Failure String :=
  required ("cannot read " ++ path)
    (shelf.files.findSome? fun file => if file.path = path then file.content else none)

/-- Opens a pull request; they are numbered from one. -/
def openRequest (number : Nat) (repository : Repository) (input : PullRequestInput) :
    Act (List Memory) PullRequest :=
  fun memories =>
    let memory := numbered number memories
    if (memory.shelf repository).pullRequestFails then ⟨.error (.host "pr failed"), [], memories⟩
    else
      let id := memory.pullRequests + 1
      let request : PullRequest := {
        id := .int id
        title := .text input.title
        url := .text ("https://stub.test/" ++ repository.fullName ++ "/" ++ toString id)
        status := .text "open" }
      ⟨.ok request, [], memories.set number { memory with pullRequests := id }⟩

def host (name : String) (number : Nat) : Host (List Memory) where
  name
  discover organization := ask number (·.repositories organization)
  listFiles repository suffix := ask number fun memory => entries (memory.shelf repository) suffix
  fetchFile repository path := ask number fun memory => content (memory.shelf repository) path
  listTags repository := ask number fun memory =>
    required "tags failed" (memory.shelf repository).tags
  hasFile repository path := ask number fun memory =>
    let shelf := memory.shelf repository
    if shelf.fileLookupFails then .error (.host "has failed")
    else .ok (shelf.files.any (·.path = path))
  createBranch repository _ := ask number fun memory =>
    if (memory.shelf repository).branchFails then .error (.host "branch failed") else .ok ()
  openPullRequest := openRequest number
  pullRequestExists repository _ := ask number fun memory =>
    required "pr lookup failed" (memory.shelf repository).pullRequestExists
  close := pure ()

/-- A new service with the given content, under the next number. -/
def start (name : String) (memory : Memory) : Act (List Memory) (Host (List Memory)) :=
  fun memories => ⟨.ok (host name memories.length), [], memories ++ [memory]⟩

end Memory

end InfraPins
