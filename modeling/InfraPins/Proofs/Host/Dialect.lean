import InfraPins.Proofs.Wire.Quiet

/-! Dialects. A dialect tells the requests of a hosting service apart: which one reads a file from a
branch, which one puts changed files into a commit, and which one says what branch that commit
starts from. -/

namespace InfraPins

/-- What the requests of a service about one repository mean. -/
structure Dialect where
  /-- The field that only the body of a request for a commit has. -/
  commitField : String
  reads : (path branch : String) → Request → Prop
  carries : List FileChange → Request → Prop
  startsFrom : (branch : String) → Request → Prop

namespace Dialect

variable (dialect : Dialect)

/-- Whether a text was obtained, as the content of a file, by reading from a branch. -/
def Obtained (branch path text : String) (known : List Exchange) : Prop :=
  ∃ request reply, (request, Answer.reply reply) ∈ known ∧ dialect.reads path branch request ∧
    reply.status < Client.firstFailure ∧ reply.body = text

/-- Whether a request, or one before it, says that a commit starts from a branch. -/
def Based (branch : String) (known : List Exchange) (request : Request) : Prop :=
  ∃ named ∈ request :: known.map Prod.fst, dialect.startsFrom branch named

theorem based_of_mem {branch : String} {known : List Exchange} {request named : Request}
    {answer : Answer} (member : (named, answer) ∈ known) (starts : dialect.startsFrom branch named) :
    dialect.Based branch known request :=
  ⟨named, List.mem_cons_of_mem _ (List.mem_map_of_mem member), starts⟩

/-- What is to hold of a request that puts files into the commit of a branch. -/
def Places (branch : BranchInput) (known : List Exchange) (request : Request) : Prop :=
  request.names dialect.commitField →
    dialect.carries branch.changes request ∧
      ∃ base, branch.baseBranch = .text base ∧ dialect.Based (stripHeads base) known request

theorem places_of_quiet {α : Type} {branch : BranchInput} {known : List Exchange} {act : Act Wire α}
    (quiet : Act.Quiet dialect.commitField act) :
    Act.Ensures (dialect.Places branch) known act fun _ _ => True :=
  quiet.ensures fun _ _ unnamed named => by simp [unnamed] at named

/-- A host that speaks a dialect about a repository: it reads files from the default branch, and
only its creation of a branch puts files into a commit. -/
structure Spoken (host : Host Wire) (repository : Repository) : Prop where
  discover : ∀ organization, Act.Quiet dialect.commitField (host.discover organization)
  listFiles : ∀ suffix, Act.Quiet dialect.commitField (host.listFiles repository suffix)
  listTags : ∀ other, Act.Quiet dialect.commitField (host.listTags other)
  hasFile : ∀ path, Act.Quiet dialect.commitField (host.hasFile repository path)
  openPullRequest : ∀ input, Act.Quiet dialect.commitField (host.openPullRequest repository input)
  pullRequestExists : ∀ branch,
    Act.Quiet dialect.commitField (host.pullRequestExists repository branch)
  fetchFile : ∀ known path,
    Act.Ensures (Act.Lacks dialect.commitField) known
      (host.fetchFile repository path) fun all text =>
        ∃ branch, repository.defaultBranch = .text branch ∧
          dialect.Obtained (stripHeads branch) path text all
  createBranch : ∀ known branch,
    Act.Ensures (dialect.Places branch) known (host.createBranch repository branch) fun _ _ => True

end Dialect

namespace Act.Ensures

theorem branchOf {good : List Exchange → Request → Prop} {known : List Exchange} {branch : Datum} :
    Ensures good known (Shapes.branchOf branch) fun all name =>
      all = known ∧ ∃ text, branch = .text text ∧ name = stripHeads text := by
  have textual : Ensures good known (Act.use branch.textMember) fun all name =>
      all = known ∧ branch = .text name := by
    refine use fun text found => ?_
    cases branch <;> cases found
    exact ⟨rfl, rfl⟩
  exact textual.bind fun more text same => pure ⟨same.1, text, same.2, rfl⟩

end Act.Ensures

end InfraPins
