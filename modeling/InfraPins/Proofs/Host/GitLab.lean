import InfraPins.Host.GitLab
import InfraPins.Proofs.Host.Dialect
import InfraPins.Proofs.Host.Responses

namespace InfraPins.GitLab

open Text Act Shapes

variable {client : Client} {repository : Repository}

/-- What requests to GitLab mean. -/
def dialect (client : Client) (repository : Repository) : Dialect where
  commitField := "actions"
  reads path branch request := request = client.requestOf
    (.get (filePath repository path ++ "/raw") (some [("ref", branch)]))
  carries changes request := ∃ fields, request.body = some (.ofFields fields) ∧
    ("actions", .list (changes.map action)) ∈ fields
  startsFrom branch request := ∃ fields, request.body = some (.ofFields fields) ∧
    ("start_branch", .text branch) ∈ fields

section Goes

variable {Goes : {α : Type} → Act Wire α → Prop} (rules : ReplyRules Goes)

include rules

theorem hasFile_goes {path : String} (branch : Goes (Shapes.defaultBranch repository))
    (asks : ∀ draft, (client.requestOf draft).names "actions" = false → Goes (client.exist draft)) :
    Goes (hasFile client repository path) :=
  rules.bind branch fun _ => asks _ rfl

/-- Where all requests go by the rules, the creation of a branch does. -/
theorem createBranch_goes {branch : BranchInput} (base : Goes (Shapes.branchOf branch.baseBranch))
    (requests : ∀ draft, Goes (client.request draft)) :
    Goes (createBranch client repository branch) :=
  rules.bind base fun _ => rules.bind (requests _) fun _ => rules.pure

/-- Where the requests for its pages go by the rules, a listing does. -/
theorem paginate_goes_of {path : String} {parameters : Parameters}
    (asks : ∀ own, Goes (client.request (.get path (some own)))) :
    Goes (paginate client path parameters) := by
  have pages_goes (most : Nat) (page : String) : Goes (pages client path parameters most page) := by
    induction most generalizing page with
    | zero => exact rules.pure
    | succ most ih =>
      refine rules.bind (asks _) fun reply => rules.bind rules.decodeList fun batch => ?_
      dsimp only
      split
      · exact rules.pure
      · exact rules.bind (ih _) fun _ => rules.pure
  exact rules.bind rules.enough fun _ => pages_goes _ _

variable
  (requests : ∀ draft, (client.requestOf draft).names "actions" = false → Goes (client.request draft))

include requests

theorem paginate_goes {path : String} {parameters : Parameters} :
    Goes (paginate client path parameters) :=
  paginate_goes_of rules fun _ => requests _ rfl

/-- What can be said of a listing that is attempted, and of what is done then, is said in the end. -/
theorem discover_goes {organization : String} (Ends : Act Wire (List Repository) → Prop)
    (attempts : ∀ {first : Act Wire (List Datum)} {next : _ → Act Wire (List Repository)}, Goes first →
      (∀ listed, Goes (next listed)) → Ends (first.attempt Failure.hostMessage? >>= next)) :
    Ends (discover client organization) := by
  refine attempts (paginate_goes rules requests) fun listed => ?_
  cases listed with
  | ok projects => exact rules.bind rules.pure fun _ => rules.expect
  | error message =>
    exact rules.bind rules.log fun _ => rules.bind (paginate_goes rules requests) fun _ => rules.expect

theorem listFiles_goes {suffix : String} (branch : Goes (Shapes.defaultBranch repository)) :
    Goes (listFiles client repository suffix) :=
  rules.bind branch fun _ => rules.bind (paginate_goes rules requests) fun _ => rules.expect_map

theorem fetchFile_goes {path : String} (branch : Goes (Shapes.defaultBranch repository)) :
    Goes (fetchFile client repository path) :=
  rules.bind branch fun _ => rules.bind (requests _ rfl) fun _ => rules.pure

theorem listTags_goes
    (sorts : ∀ names : Except Misuse (List Datum), Goes (client.expecting "tag list" do
      let names ← Act.use names
      Act.lift (Version.sortTags names))) :
    Goes (listTags client repository) :=
  rules.bind (paginate_goes rules requests) fun _ => sorts _

theorem enableAutoMerge_goes {id : Datum}
    (attempts : ∀ {act : Act Wire Reply}, Goes act → Goes (act.attempt Failure.hostMessage?)) :
    Goes (enableAutoMerge client repository id) := by
  refine rules.bind (attempts (requests _ ?_)) fun result => ?_
  · simp [Client.requestOf, Request.names, Datum.ofFields]
  · cases result with
    | ok reply => exact rules.pure
    | error message => exact rules.log

/-- A pull request is opened, and then perhaps completed: what can be said of the one and of the other
is said in the end. -/
theorem openPullRequest_goes {input : PullRequestInput} (Ends : Act Wire PullRequest → Prop)
    (target : Goes (Shapes.branchOf input.targetBranch))
    (onward : ∀ {α : Type} {first : Act Wire α} {next : α → Act Wire PullRequest}, Goes first →
      (∀ value, Ends (next value)) → Ends (first >>= next))
    (refuses : ∀ message, Ends (Act.fail (.host message)))
    (completes : ∀ id request, Ends (if input.autoComplete then do
        enableAutoMerge client repository id
        pure request
      else pure request)) :
    Ends (openPullRequest client repository input) := by
  refine onward target fun target => onward (rules.requestValue (requests _ ?_)) fun reply => ?_
  · simp [Client.requestOf, Client.Draft.post, Request.names, Datum.ofFields]
  · cases found : reply.field "iid" with
    | error cause => exact refuses _
    | ok id =>
      obtain ⟨fields, described⟩ := pullRequestFields_of_field input "web_url" "state" "opened" found
      rw [Client.expecting_ok_bind, described]
      exact completes id _

theorem pullRequestExists_goes {branch : String} :
    Goes (pullRequestExists client repository branch) :=
  rules.bind (rules.requestList (requests _ rfl)) fun _ => rules.pure

/-- The same is said of opening a pull request and of completing it. -/
theorem openPullRequest_goes_alike {input : PullRequestInput}
    (target : Goes (Shapes.branchOf input.targetBranch))
    (attempts : ∀ {act : Act Wire Reply}, Goes act → Goes (act.attempt Failure.hostMessage?)) :
    Goes (openPullRequest client repository input) := by
  refine openPullRequest_goes rules requests Goes target rules.bind (fun _ => rules.report)
    fun id request => ?_
  split
  · exact rules.bind (enableAutoMerge_goes rules requests attempts) fun _ => rules.pure
  · exact rules.pure

end Goes

/-- Where all that is sent goes by the rules, all that is asked of GitLab does. -/
theorem perform_goes {Goes : {α : Type} → Act Wire α → Prop} (rules : WireRules Goes)
    (attempts : ∀ {α : Type} {act : Act Wire α}, Goes act → Goes (act.attempt Failure.hostMessage?))
    (sends : ∀ draft, Goes (client.send draft)) (call : Call) : Goes ((host client).perform call) := by
  have replies : ReplyRules Goes := rules.toReplyRules
  have requests (draft : Client.Draft) (_ : (client.requestOf draft).names "actions" = false) :
      Goes (client.request draft) := rules.request (sends draft)
  cases call with
  | discover organization =>
    exact discover_goes replies requests Goes fun head rest => rules.bind (attempts head) rest
  | listFiles repository suffix => exact listFiles_goes replies requests rules.branchOf
  | fetchFile repository path => exact fetchFile_goes replies requests rules.branchOf
  | listTags repository => exact listTags_goes replies requests rules.sorts
  | hasFile repository path =>
    exact hasFile_goes replies rules.branchOf fun draft _ => rules.exist (sends draft)
  | createBranch repository branch =>
    exact createBranch_goes replies rules.branchOf fun draft => rules.request (sends draft)
  | openPullRequest repository input =>
    exact openPullRequest_goes_alike replies requests rules.branchOf attempts
  | pullRequestExists repository branch => exact pullRequestExists_goes replies requests
  | close => exact rules.pure

private theorem fetchFile_obtains {known : List Exchange} {path : String} :
    Ensures (Lacks "actions") known
      (fetchFile client repository path) fun all text =>
        ∃ branch, repository.defaultBranch = .text branch ∧
          (dialect client repository).Obtained (stripHeads branch) path text all := by
  refine Ensures.branchOf.bind fun _ name => ?_
  rintro ⟨-, branch, default, rfl⟩
  refine (Ensures.request rfl).bind fun _ reply => ?_
  rintro ⟨known, succeeded⟩
  exact .pure ⟨branch, default, _, reply, by rw [known]; simp, rfl, succeeded, rfl⟩

private theorem createBranch_places {known : List Exchange} {branch : BranchInput} :
    Ensures ((dialect client repository).Places branch) known
      (createBranch client repository branch) fun _ _ => True := by
  refine Ensures.branchOf.bind fun _ base => ?_
  rintro ⟨-, name, named, rfl⟩
  refine (Ensures.request fun _ => ⟨⟨_, rfl, ?_⟩, name, named, _, List.mem_cons_self, _, rfl, ?_⟩).bind
    fun _ _ _ => .pure trivial
  all_goals simp

theorem host_spoken (client : Client) (repository : Repository) :
    (dialect client repository).Spoken (host client) repository where
  discover _ := discover_goes Quiet.rules.toReplyRules (Quiet.request client) _
    fun head rest => Quiet.bind head.attempt rest
  listFiles _ := listFiles_goes Quiet.rules.toReplyRules (Quiet.request client) Quiet.rules.branchOf
  listTags _ := listTags_goes Quiet.rules.toReplyRules (Quiet.request client) Quiet.rules.sorts
  hasFile _ := hasFile_goes Quiet.rules.toReplyRules Quiet.rules.branchOf (Quiet.exist client)
  openPullRequest _ := openPullRequest_goes_alike Quiet.rules.toReplyRules (Quiet.request client)
    Quiet.rules.branchOf Quiet.attempt
  pullRequestExists _ := pullRequestExists_goes Quiet.rules.toReplyRules (Quiet.request client)
  fetchFile _ _ := fetchFile_obtains
  createBranch _ _ := createBranch_places

end InfraPins.GitLab
