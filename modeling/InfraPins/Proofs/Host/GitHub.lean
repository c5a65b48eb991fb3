import InfraPins.Host.GitHub
import InfraPins.Proofs.Host.Dialect
import InfraPins.Proofs.Host.Responses

namespace InfraPins.GitHub

open Text Act

variable {client : Client} {repository : Repository}

/-- What requests to GitHub mean. -/
def dialect (client : Client) (repository : Repository) : Dialect where
  commitField := "base_tree"
  reads path branch request := request = client.requestOf
    { Client.Draft.get (filePath repository path) (some [("ref", branch)]) with
      headers := [("Accept", "application/vnd.github.raw+json")] }
  carries changes request := ∃ base, request.body =
    some (.ofFields [("base_tree", base), ("tree", .list (changes.map treeEntry))])
  startsFrom branch request := request = client.requestOf
    (.get (repositoryPath repository ++ "/git/ref/heads/" ++ Percent.segment branch) none)

section Goes

variable {Goes : {α : Type} → Act Wire α → Prop} (rules : ReplyRules Goes)

include rules

theorem hasFile_goes {path : String} (branch : Goes (Shapes.defaultBranch repository))
    (asks : ∀ draft, (client.requestOf draft).names "base_tree" = false → Goes (client.exist draft)) :
    Goes (hasFile client repository path) :=
  rules.bind branch fun _ => asks _ rfl

/-- Where all requests go by the rules, the creation of a branch does. -/
theorem createBranch_goes {branch : BranchInput} (base : Goes (Shapes.branchOf branch.baseBranch))
    (requests : ∀ draft, Goes (client.request draft)) :
    Goes (createBranch client repository branch) := by
  have described {α : Type} (draft : Client.Draft) {next : Datum → Except Misuse Datum}
      {rest : Datum → Datum → Act Wire α}
      (onward : ∀ reply value, Goes (client.expecting "git data" (rest reply value))) :
      Goes (client.expecting "git data" do
        let reply ← client.requestValue draft
        let value ← Act.use (next reply)
        rest reply value) := by
    rw [Client.expecting_bind, Client.expecting_requestValue]
    refine rules.bind (rules.requestValue (requests _)) fun reply => ?_
    rw [Client.expecting_bind]
    exact rules.bind rules.expect (onward reply)
  refine rules.bind base fun base => ?_
  refine described _ fun _ parent => described _ fun _ baseTree => described _ fun _ treeId => ?_
  refine described _ fun _ commitId => ?_
  rw [Client.expecting_bind, Client.expecting_request]
  exact rules.bind (requests _) fun _ => rules.pure

variable
  (requests : ∀ draft, (client.requestOf draft).names "base_tree" = false → Goes (client.request draft))

include requests

theorem paginate_goes {path : String} : Goes (paginate client path) := by
  have pages_goes (most page : Nat) : Goes (pages client path most page) := by
    induction most generalizing page with
    | zero => exact rules.pure
    | succ most ih =>
      refine rules.bind (rules.requestList (requests _ rfl)) fun batch => ?_
      split
      · exact rules.pure
      · exact rules.bind (ih _) fun _ => rules.pure
  exact rules.bind rules.enough fun _ => pages_goes _ _

/-- What can be said of a listing that is attempted, and of what is done then, is said in the end. -/
theorem discover_goes {organization : String} (Ends : Act Wire (List Repository) → Prop)
    (attempts : ∀ {first : Act Wire (List Datum)} {next : _ → Act Wire (List Repository)}, Goes first →
      (∀ listed, Goes (next listed)) → Ends (first.attempt Failure.hostMessage? >>= next)) :
    Ends (discover client organization) := by
  refine attempts (paginate_goes rules requests) fun listed => ?_
  have expected (items : List Datum) : Goes
      (client.expecting "repository list" do
        return (← Act.use (items.mapM (activeRepository? client organization))).filterMap id) :=
    rules.expect_map
  cases listed with
  | ok items => exact rules.bind rules.pure expected
  | error message => exact rules.bind (paginate_goes rules requests) expected

theorem listFiles_goes {suffix : String} (branch : Goes (Shapes.defaultBranch repository)) :
    Goes (listFiles client repository suffix) := by
  refine rules.bind branch fun branch =>
    rules.bind (rules.requestValue (requests _ rfl)) fun tree => ?_
  have entries : Goes (client.expecting "tree" do
      let nodes ← Act.use (tree.fieldOr "tree" (.list []))
      let nodes ← Act.use nodes.elements
      return (← Act.use (nodes.mapM (Shapes.entryWithSuffix? "sha" suffix))).filterMap id) := by
    rw [Client.expecting_bind]
    refine rules.bind rules.expect fun nodes => ?_
    rw [Client.expecting_bind]
    exact rules.bind rules.expect fun nodes => rules.expect_map
  rw [Client.expecting_bind]
  refine rules.bind rules.expect fun truncated => ?_
  split
  · rw [Client.expecting_bind, Client.expecting_log]
    exact rules.bind rules.log fun _ => entries
  · exact entries

theorem fetchFile_goes {path : String} (branch : Goes (Shapes.defaultBranch repository)) :
    Goes (fetchFile client repository path) :=
  rules.bind branch fun _ => rules.bind (requests _ rfl) fun _ => rules.pure

theorem listTags_goes
    (sorts : ∀ names : Except Misuse (List Datum), Goes (client.expecting "tag list" do
      let names ← Act.use names
      Act.lift (Version.sortTags names))) :
    Goes (listTags client repository) :=
  rules.bind (paginate_goes rules requests) fun _ => sorts _

theorem openPullRequest_goes {input : PullRequestInput}
    (target : Goes (Shapes.branchOf input.targetBranch)) :
    Goes (openPullRequest client repository input) := by
  refine rules.bind target fun target => rules.bind (rules.requestValue (requests _ ?_)) fun reply => ?_
  · simp [Client.requestOf, Client.Draft.post, Request.names, Datum.ofFields]
  · split
    · exact rules.bind rules.log fun _ => rules.expect
    · exact rules.expect

theorem pullRequestExists_goes {branch : String} :
    Goes (pullRequestExists client repository branch) :=
  rules.bind (rules.requestList (requests _ rfl)) fun _ => rules.pure

end Goes

/-- Where all that is sent goes by the rules, all that is asked of GitHub does. -/
theorem perform_goes {Goes : {α : Type} → Act Wire α → Prop} (rules : WireRules Goes)
    (attempts : ∀ {α : Type} {act : Act Wire α}, Goes act → Goes (act.attempt Failure.hostMessage?))
    (sends : ∀ draft, Goes (client.send draft)) (call : Call) : Goes ((host client).perform call) := by
  have replies : ReplyRules Goes := rules.toReplyRules
  have requests (draft : Client.Draft) (_ : (client.requestOf draft).names "base_tree" = false) :
      Goes (client.request draft) := rules.request (sends draft)
  cases call with
  | discover organization =>
    exact discover_goes replies requests Goes fun head rest => rules.bind (attempts head) rest
  | listFiles repository suffix => exact listFiles_goes replies requests rules.branchOf
  | fetchFile repository path => exact fetchFile_goes replies requests rules.branchOf
  | listTags repository => exact listTags_goes replies requests rules.sorts
  | hasFile repository path =>
    exact hasFile_goes replies rules.branchOf fun draft _ => rules.exist (sends draft)
  | createBranch repository branch =>
    exact createBranch_goes replies rules.branchOf fun draft => rules.request (sends draft)
  | openPullRequest repository input => exact openPullRequest_goes replies requests rules.branchOf
  | pullRequestExists repository branch => exact pullRequestExists_goes replies requests
  | close => exact rules.pure

private theorem fetchFile_obtains {known : List Exchange} {path : String} :
    Ensures (Lacks "base_tree") known
      (fetchFile client repository path) fun all text =>
        ∃ branch, repository.defaultBranch = .text branch ∧
          (dialect client repository).Obtained (stripHeads branch) path text all := by
  refine Ensures.branchOf.bind fun _ name => ?_
  rintro ⟨-, branch, default, rfl⟩
  refine (Ensures.request rfl).bind fun _ reply => ?_
  rintro ⟨known, succeeded⟩
  exact .pure ⟨branch, default, _, reply, by rw [known]; simp, rfl, succeeded, rfl⟩

private theorem createBranch_places {known : List Exchange} {branch : BranchInput} :
    Ensures ((dialect client repository).Places branch) known
      (createBranch client repository branch) fun _ _ => True := by
  refine Ensures.branchOf.bind fun _ base => ?_
  rintro ⟨-, name, named, rfl⟩
  have quiet {α : Type} {act : Act Wire α} {known : List Exchange}
      (silent : Quiet "base_tree" act) :
      Ensures ((dialect client repository).Places branch) known act fun _ _ => True :=
    (dialect client repository).places_of_quiet silent
  refine Ensures.mapFailure ?_
  refine (Ensures.requestValue fun field => by cases field).bind fun more _ => ?_
  rintro ⟨reply, found⟩
  refine (quiet Quiet.rules.use).bind fun _ parent _ => ?_
  refine (quiet (Quiet.rules.requestValue (Quiet.request _ _ rfl))).bind fun _ baseCommit _ => ?_
  refine (quiet Quiet.rules.use).bind fun _ baseTree _ => ?_
  refine (Ensures.requestValue fun _ => ⟨⟨baseTree, rfl⟩, name, named, ?based⟩).bind
    fun _ tree _ => ?rest
  case based => exact ⟨_, List.mem_cons_of_mem _ (by simp [found]), rfl⟩
  case rest =>
    refine (quiet Quiet.rules.use).bind fun _ treeId _ => ?_
    refine (quiet (Quiet.rules.requestValue (Quiet.request _ _ ?_))).bind fun _ commit _ =>
      (quiet Quiet.rules.use).bind fun _ commitId _ =>
        (quiet (Quiet.request _ _ ?_)).bind fun _ _ _ => .pure trivial
    all_goals simp [Client.requestOf, Client.Draft.post, Request.names, Datum.ofFields]

theorem host_spoken (client : Client) (repository : Repository) :
    (dialect client repository).Spoken (host client) repository where
  discover _ := discover_goes Quiet.rules.toReplyRules (Quiet.request client) _
    fun head rest => Quiet.bind head.attempt rest
  listFiles _ := listFiles_goes Quiet.rules.toReplyRules (Quiet.request client) Quiet.rules.branchOf
  listTags _ := listTags_goes Quiet.rules.toReplyRules (Quiet.request client) Quiet.rules.sorts
  hasFile _ := hasFile_goes Quiet.rules.toReplyRules Quiet.rules.branchOf (Quiet.exist client)
  openPullRequest _ := openPullRequest_goes Quiet.rules.toReplyRules (Quiet.request client)
    Quiet.rules.branchOf
  pullRequestExists _ := pullRequestExists_goes Quiet.rules.toReplyRules (Quiet.request client)
  fetchFile _ _ := fetchFile_obtains
  createBranch _ _ := createBranch_places

end InfraPins.GitHub
