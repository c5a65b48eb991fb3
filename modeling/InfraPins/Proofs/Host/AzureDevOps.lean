import InfraPins.Host.AzureDevOps
import InfraPins.Proofs.Host.Dialect
import InfraPins.Proofs.Host.Responses

namespace InfraPins.AzureDevOps

open Text Act Shapes

variable {client : Client} {repository : Repository}

/-- What requests to Azure DevOps mean. -/
def dialect (client : Client) : Dialect where
  commitField := "commits"
  reads path branch request := ∃ place, request = client.requestOf
    (.get (place ++ "/items") (some [("path", rooted path), ("$format", "octetStream"), version,
      ("versionDescriptor.version", branch), ("versionDescriptor.versionType", "branch")]))
  carries changes request := ∃ branch parent, branch.changes = changes ∧
    request.body = some (.ofFields (push branch parent))
  startsFrom branch request := ∃ place parameters, request = client.requestOf
    (.get (place ++ "/refs") (some parameters)) ∧ ("filter", "heads/" ++ branch) ∈ parameters

private theorem repositoryPath_silent {good : List Exchange → Request → Prop}
    {known : List Exchange} :
    Ensures good known (repositoryPath repository) fun all _ => all = known :=
  .use fun _ _ => rfl

section Goes

variable {Goes : {α : Type} → Act Wire α → Prop} (rules : ReplyRules Goes)

include rules

theorem onDefaultBranch_goes (branch : Goes (Shapes.defaultBranch repository)) :
    Goes (onDefaultBranch repository) :=
  rules.bind branch fun _ => rules.pure

theorem hasFile_goes {path : String} (place : Goes (repositoryPath repository))
    (branch : Goes (Shapes.defaultBranch repository))
    (asks : ∀ draft, (client.requestOf draft).names "commits" = false → Goes (client.exist draft)) :
    Goes (hasFile client repository path) :=
  rules.bind place fun _ => rules.bind (onDefaultBranch_goes rules branch) fun _ => asks _ rfl

section Requests

variable
  (requests : ∀ draft, (client.requestOf draft).names "commits" = false → Goes (client.request draft))

include requests

theorem pages_goes {path token : String} {parameters : Parameters} {most : Nat} :
    Goes (pages client path parameters most token) := by
  induction most generalizing token with
  | zero => exact rules.pure
  | succ most ih =>
    refine rules.bind (requests _ rfl) fun reply => rules.bind rules.decode fun value => ?_
    refine rules.bind rules.expect fun batch => ?_
    dsimp only
    split
    · exact rules.pure
    · exact rules.bind ih fun _ => rules.pure

theorem collect_goes {path : String} {parameters : Parameters} :
    Goes (collect client path parameters) :=
  rules.bind rules.enough fun _ => pages_goes rules requests

theorem projectRepositories_goes {organization : String} {project : Datum}
    (segment : ∀ name, project.field "name" = .ok name → Goes (Act.use (segmentOf name))) :
    Goes (projectRepositories client organization project) := by
  unfold projectRepositories
  cases named : project.field "name" with
  | error cause => exact rules.report
  | ok name =>
    rw [Client.expecting_ok_bind]
    exact rules.bind (segment name named) fun _ => rules.bind (collect_goes rules requests) fun _ =>
      rules.expect_map

theorem listFiles_goes {suffix : String} (place : Goes (repositoryPath repository))
    (branch : Goes (Shapes.defaultBranch repository)) : Goes (listFiles client repository suffix) :=
  rules.bind place fun _ => rules.bind (onDefaultBranch_goes rules branch) fun _ =>
    rules.bind (collect_goes rules requests) fun _ => rules.expect_map

theorem fetchFile_goes {path : String} (place : Goes (repositoryPath repository))
    (branch : Goes (Shapes.defaultBranch repository)) : Goes (fetchFile client repository path) :=
  rules.bind place fun _ => rules.bind (onDefaultBranch_goes rules branch) fun _ =>
    rules.bind (requests _ rfl) fun _ => rules.pure

theorem listTags_goes (place : Goes (repositoryPath repository))
    (sorts : ∀ names : Except Misuse (List Datum), Goes (client.expecting "tag list" do
      let names ← Act.use names
      Act.lift (Version.sortTags names))) :
    Goes (listTags client repository) :=
  rules.bind place fun _ => rules.bind (collect_goes rules requests) fun _ => sorts _

theorem branchHead_goes {branch : Datum} (place : Goes (repositoryPath repository))
    (base : Goes (Shapes.branchOf branch)) : Goes (branchHead client repository branch) := by
  refine rules.bind base fun _ => rules.bind place fun _ =>
    rules.bind (collect_goes rules requests) fun _ => rules.bind rules.expect fun commit => ?_
  cases commit with
  | some commit => exact rules.pure
  | none => exact rules.report

theorem enableAutoComplete_goes {id creator : Datum} (place : Goes (repositoryPath repository))
    (attempts : ∀ {act : Act Wire Reply}, Goes act → Goes (act.attempt Failure.hostMessage?)) :
    Goes (enableAutoComplete client repository id creator) := by
  unfold enableAutoComplete
  dsimp only
  split
  · refine rules.bind place fun _ => rules.bind (attempts (requests _ ?_)) fun result => ?_
    · simp [Client.requestOf, Request.names, Datum.ofFields]
    · cases result with
      | ok reply => exact rules.pure
      | error message => exact rules.log
  · exact rules.log

/-- A pull request is opened, and then perhaps completed: what can be said of the one and of the other
is said in the end. -/
theorem openPullRequest_goes {input : PullRequestInput} (Ends : Act Wire PullRequest → Prop)
    (place : Goes (repositoryPath repository)) (target : Goes (Shapes.branchOf input.targetBranch))
    (onward : ∀ {α : Type} {first : Act Wire α} {next : α → Act Wire PullRequest}, Goes first →
      (∀ value, Ends (next value)) → Ends (first >>= next))
    (refuses : ∀ message, Ends (Act.fail (.host message)))
    (completes : ∀ id creator request, Ends (if input.autoComplete then do
        enableAutoComplete client repository id creator
        pure request
      else pure request)) :
    Ends (openPullRequest client repository input) := by
  refine onward place fun path => onward target fun target =>
    onward (rules.requestValue (requests _ ?_)) fun reply => ?_
  · simp [Client.requestOf, Client.Draft.post, Request.names, Datum.ofFields]
  · cases found : identities reply with
    | error cause => exact refuses _
    | ok both =>
      obtain ⟨id, creator⟩ := both
      obtain ⟨_, numbered, _⟩ := Result.bind_eq_ok.mp found
      obtain ⟨fields, described⟩ := pullRequestFields_of_field input "url" "status" "active" numbered
      rw [Client.expecting_ok_bind, described]
      exact completes id creator _

/-- The same is said of opening a pull request and of completing it. -/
theorem openPullRequest_goes_alike {input : PullRequestInput} (place : Goes (repositoryPath repository))
    (target : Goes (Shapes.branchOf input.targetBranch))
    (attempts : ∀ {act : Act Wire Reply}, Goes act → Goes (act.attempt Failure.hostMessage?)) :
    Goes (openPullRequest client repository input) := by
  refine openPullRequest_goes rules requests Goes place target rules.bind (fun _ => rules.report)
    fun id creator request => ?_
  split
  · exact rules.bind (enableAutoComplete_goes rules requests place attempts) fun _ => rules.pure
  · exact rules.pure

theorem pullRequestExists_goes {branch : String} (place : Goes (repositoryPath repository)) :
    Goes (pullRequestExists client repository branch) :=
  rules.bind place fun _ => rules.bind (rules.requestValue (requests _ rfl)) fun _ => rules.expect

end Requests

/-- Where all requests go by the rules, the creation of a branch does. -/
theorem createBranch_goes {branch : BranchInput} (place : Goes (repositoryPath repository))
    (base : Goes (Shapes.branchOf branch.baseBranch)) (requests : ∀ draft, Goes (client.request draft)) :
    Goes (createBranch client repository branch) :=
  rules.bind (branchHead_goes rules (fun draft _ => requests draft) place base) fun _ =>
    rules.bind place fun _ => rules.bind (requests _) fun _ => rules.pure

end Goes

section Free

variable {Goes : {α : Type} → Act Wire α → Prop} (rules : WireRules Goes)

include rules

theorem discover_goes {organization : String}
    (requests : ∀ draft, (client.requestOf draft).names "commits" = false → Goes (client.request draft)) :
    Goes (discover client organization) :=
  rules.bind (collect_goes rules.toReplyRules requests) fun _ =>
    rules.bind (rules.mapM fun _ => projectRepositories_goes rules.toReplyRules requests
      fun _ _ => rules.use) fun _ => rules.pure

/-- Where all that is sent goes by the rules, all that is asked of Azure DevOps does. -/
theorem perform_goes
    (attempts : ∀ {α : Type} {act : Act Wire α}, Goes act → Goes (act.attempt Failure.hostMessage?))
    (sends : ∀ draft, Goes (client.send draft)) (call : Call) : Goes ((host client).perform call) := by
  have replies : ReplyRules Goes := rules.toReplyRules
  have requests (draft : Client.Draft) (_ : (client.requestOf draft).names "commits" = false) :
      Goes (client.request draft) := rules.request (sends draft)
  cases call with
  | discover organization => exact discover_goes rules requests
  | listFiles repository suffix => exact listFiles_goes replies requests rules.use rules.branchOf
  | fetchFile repository path => exact fetchFile_goes replies requests rules.use rules.branchOf
  | listTags repository => exact listTags_goes replies requests rules.use rules.sorts
  | hasFile repository path =>
    exact hasFile_goes replies rules.use rules.branchOf fun draft _ => rules.exist (sends draft)
  | createBranch repository branch =>
    exact createBranch_goes replies rules.use rules.branchOf fun draft => rules.request (sends draft)
  | openPullRequest repository input =>
    exact openPullRequest_goes_alike replies requests rules.use rules.branchOf attempts
  | pullRequestExists repository branch => exact pullRequestExists_goes replies requests rules.use
  | close => exact rules.pure

end Free

private theorem fetchFile_obtains {known : List Exchange} {path : String} :
    Ensures (Lacks "commits") known
      (fetchFile client repository path) fun all text =>
        ∃ branch, repository.defaultBranch = .text branch ∧
          (dialect client).Obtained (stripHeads branch) path text all := by
  have chosen {known : List Exchange} :
      Ensures (Lacks "commits") known (onDefaultBranch repository) fun _ parameters =>
        ∃ branch, repository.defaultBranch = .text branch ∧ parameters =
          [("versionDescriptor.version", stripHeads branch),
            ("versionDescriptor.versionType", "branch")] := by
    refine Ensures.branchOf.bind fun _ name => ?_
    rintro ⟨-, branch, default, rfl⟩
    exact .pure ⟨branch, default, rfl⟩
  refine repositoryPath_silent.bind fun _ place _ => chosen.bind fun _ parameters => ?_
  rintro ⟨branch, default, rfl⟩
  refine (Ensures.request rfl).bind fun _ reply => ?_
  rintro ⟨known, succeeded⟩
  exact .pure ⟨branch, default, _, reply, by rw [known]; simp, ⟨place, rfl⟩, succeeded, rfl⟩

private theorem collect_asks {branch : BranchInput} {known : List Exchange} {path : String}
    {parameters : Parameters} :
    Ensures ((dialect client).Places branch) known (collect client path parameters) fun all _ =>
      ∃ answer, (client.requestOf (.get path (some (parameters ++ [version]))), answer) ∈ all := by
  have start : Ensures ((dialect client).Places branch) known Client.enough fun _ most => 0 < most :=
    .of_silent (fun _ => rfl) (fun _ => rfl) fun _ _ found => by cases found; exact Nat.succ_pos _
  refine start.bind fun _ most positive => ?_
  obtain ⟨most, rfl⟩ := Nat.exists_eq_add_one_of_ne_zero (Nat.ne_of_gt positive)
  refine (Ensures.request fun field => by cases field).bind fun _ reply => ?_
  rintro ⟨asked, -⟩
  refine ((dialect client).places_of_quiet ?quiet).weaken fun more _ _ => ?asked
  case quiet =>
    refine Quiet.rules.decode.bind fun value => (Quiet.rules.expecting Quiet.rules.use).bind fun batch => ?_
    dsimp only
    split
    · exact .pure
    · exact (pages_goes Quiet.rules.toReplyRules (Quiet.request client)).bind fun _ => .pure
  case asked => exact ⟨.reply reply, by rw [asked]; simp⟩

private theorem createBranch_places {known : List Exchange} {branch : BranchInput} :
    Ensures ((dialect client).Places branch) known
      (createBranch client repository branch) fun _ _ => True := by
  have looked : Ensures ((dialect client).Places branch) known
      (branchHead client repository branch.baseBranch) fun all _ =>
        ∃ base, branch.baseBranch = .text base ∧ ∃ request answer, (request, answer) ∈ all ∧
          (dialect client).startsFrom (stripHeads base) request := by
    refine Ensures.branchOf.bind fun _ short => ?_
    rintro ⟨-, base, named, rfl⟩
    refine repositoryPath_silent.bind fun _ place _ => collect_asks.bind fun _ references => ?_
    rintro ⟨answer, asked⟩
    refine ((dialect client).places_of_quiet ?quiet).weaken fun more _ _ => ?asked
    case quiet =>
      refine (Quiet.rules.expecting Quiet.rules.use).bind fun commit => ?_
      cases commit with
      | some commit => exact .pure
      | none => exact Quiet.rules.report
    case asked =>
      exact ⟨base, named, _, answer, List.mem_append_left _ asked, place, _, rfl, by simp⟩
  refine looked.bind fun _ parent => ?_
  rintro ⟨base, named, request, answer, asked, starts⟩
  refine repositoryPath_silent.bind fun more path same => ?_
  refine (Ensures.request fun _ => ⟨⟨branch, parent, rfl, rfl⟩, base, named, ?_⟩).bind
    fun _ _ _ => .pure trivial
  rw [same]
  exact Dialect.based_of_mem _ asked starts

theorem host_spoken (client : Client) (repository : Repository) :
    (dialect client).Spoken (host client) repository where
  discover _ := discover_goes Quiet.rules (Quiet.request client)
  listFiles _ := listFiles_goes Quiet.rules.toReplyRules (Quiet.request client) Quiet.rules.use Quiet.rules.branchOf
  listTags _ := listTags_goes Quiet.rules.toReplyRules (Quiet.request client) Quiet.rules.use Quiet.rules.sorts
  hasFile _ := hasFile_goes Quiet.rules.toReplyRules Quiet.rules.use Quiet.rules.branchOf (Quiet.exist client)
  openPullRequest _ := openPullRequest_goes_alike Quiet.rules.toReplyRules (Quiet.request client) Quiet.rules.use
    Quiet.rules.branchOf Quiet.attempt
  pullRequestExists _ := pullRequestExists_goes Quiet.rules.toReplyRules (Quiet.request client) Quiet.rules.use
  fetchFile _ _ := fetchFile_obtains
  createBranch _ _ := createBranch_places

end InfraPins.AzureDevOps
