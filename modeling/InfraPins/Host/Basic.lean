import InfraPins.Journal

/-! Hosting services, and the registry that has them by the names of their types. A host is given by its
operations; asking one for an operation puts the call into the journal first. -/

namespace InfraPins

/-- A Git hosting service that is spoken to over a state. An operation of it fails by
`Failure.host`; any other failure is one that its caller does not expect. -/
structure Host (σ : Type) where
  name : String
  discover : String → Act σ (List Repository)
  listFiles : Repository → String → Act σ (List TreeEntry)
  fetchFile : Repository → String → Act σ String
  listTags : Repository → Act σ (List Datum)
  hasFile : Repository → String → Act σ Bool
  createBranch : Repository → BranchInput → Act σ Unit
  openPullRequest : Repository → PullRequestInput → Act σ PullRequest
  pullRequestExists : Repository → String → Act σ Bool
  close : Act σ Unit

namespace Host

variable {σ : Type} (host : Host σ)

def askDiscover (organization : String) : Act σ (List Repository) := do
  Act.record (.called (.discover organization))
  host.discover organization

def askFiles (repository : Repository) (suffix : String) : Act σ (List TreeEntry) := do
  Act.record (.called (.listFiles repository suffix))
  host.listFiles repository suffix

def askContent (repository : Repository) (path : String) : Act σ String := do
  Act.record (.called (.fetchFile repository path))
  host.fetchFile repository path

/-- Asks for the tags of a repository, newest first. -/
def askTags (repository : Repository) : Act σ (List Datum) := do
  Act.record (.called (.listTags repository))
  host.listTags repository

def askHasFile (repository : Repository) (path : String) : Act σ Bool := do
  Act.record (.called (.hasFile repository path))
  host.hasFile repository path

def askBranch (repository : Repository) (branch : BranchInput) : Act σ Unit := do
  Act.record (.called (.createBranch repository branch))
  host.createBranch repository branch

def askPullRequest (repository : Repository) (input : PullRequestInput) : Act σ PullRequest := do
  Act.record (.called (.openPullRequest repository input))
  host.openPullRequest repository input

def askPullRequestExists (repository : Repository) (branch : String) : Act σ Bool := do
  Act.record (.called (.pullRequestExists repository branch))
  host.pullRequestExists repository branch

/-- Lets go of a host. -/
def askClose : Act σ Unit := do
  Act.record (.called .close)
  host.close

end Host

/-- How a host of some type is made, from a token and the base of its addresses, if one is given. -/
abbrev Opener (σ : Type) := String → Option String → Act σ (Host σ)

abbrev Registry (σ : Type) := List (String × Opener σ)

/-- Makes a host of a registered type. An empty base counts as none. -/
def Registry.openHost {σ : Type} (registry : Registry σ) (hostType token baseUrl : String) :
    Act σ (Host σ) :=
  match registry.lookup hostType with
  | none => Act.fail (.unknownHost hostType)
  | some opener => do
    let base := if baseUrl.isEmpty then none else some baseUrl
    Act.record (.opened hostType token base)
    opener token base

end InfraPins
