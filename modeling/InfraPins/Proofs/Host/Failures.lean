import InfraPins.Proofs.Host.Success
import InfraPins.Proofs.Version.Faults

/-! Failures of a host's operations. A built-in host reports what goes wrong with a request or with the
values of its reply; what it overlooks is told here: a branch, a name or an id that a listing gave and
that is no text, and a number in a tag that is too long to be read. -/

namespace InfraPins

open Act

def Failure.IsReport (cause : Failure) : Prop :=
  ∃ message, cause = .host message

def Datum.Odd (value : Datum) : Prop :=
  ∀ text, value ≠ .text text

theorem Datum.textMember_ends (value : Datum) :
    Result.Ends (fun cause => cause = .noMember ∧ value.Odd) value.textMember fun text =>
      value = .text text := by
  cases value
  case text => exact .ok rfl
  all_goals exact .error ⟨rfl, nofun⟩

theorem Datum.textOperand_ends (value : Datum) :
    Result.Ends (fun cause => cause = .unsupported ∧ value.Odd) value.textOperand fun text =>
      value = .text text := by
  cases value
  case text => exact .ok rfl
  all_goals exact .error ⟨rfl, nofun⟩

def Call.repository? : Call → Option Repository
  | .listFiles repository _ | .fetchFile repository _ | .listTags repository | .hasFile repository _
  | .createBranch repository _ | .openPullRequest repository _ | .pullRequestExists repository _ =>
    some repository
  | .discover _ | .close => none

/-- Whether a call is for what the default branch has. -/
def Call.readsBranch : Call → Bool
  | .listFiles _ _ | .fetchFile _ _ | .hasFile _ _ => true
  | _ => false

namespace Act.Ends

variable {fatal : Failure → Prop} {client : Client} {what : String}

/-- What is said of operations over a script for which reports are fatal. -/
theorem replyRules (reported : ∀ message, fatal (.host message)) :
    ReplyRules fun {α} (act : Act Wire α) => Ends fatal act fun _ => True where
  pure := pure trivial
  bind := seq
  report := fail (reported _)
  log := log
  expect := mapFailure (use ⟨fun _ _ => reported _, fun _ _ => trivial⟩)
  enough := fun _ => .ok trivial

theorem send {draft : Client.Draft} : Ends fatal (client.send draft) fun _ => True := by
  intro wire
  rw [Client.send_apply]
  exact .ok trivial

theorem request (reported : ∀ message, fatal (.host message)) (draft : Client.Draft) :
    Ends fatal (client.request draft) fun _ => True :=
  (replyRules reported).request send

theorem branchOf {branch : Datum} (odd : branch.Odd → fatal (.misuse .noMember)) :
    Ends fatal (Shapes.branchOf branch : Act Wire String) fun _ => True := by
  refine (use (branch.textMember_ends.mono ?_)).bind fun _ _ => pure trivial
  rintro _ ⟨rfl, none⟩
  exact odd none

theorem attempts {α β : Type} {first : Act Wire α} {next : Except String α → Act Wire β}
    (head : Ends fatal first fun _ => True) (rest : ∀ listed, Ends fatal (next listed) fun _ => True) :
    Ends fatal (first.attempt Failure.hostMessage? >>= next) fun _ => True :=
  (attempt (head.mono fun _ bad _ => bad)).bind fun listed _ => rest listed

/-- Tags that are sorted under an expectation. -/
theorem sorts (reported : ∀ message, fatal (.host message)) (long : ∀ cause, cause.IsLong → fatal cause)
    (names : Except Misuse (List Datum)) :
    Ends fatal (client.expecting what do
      let names ← Act.use names
      Act.lift (Version.sortTags names) : Act Wire (List Datum)) fun _ => True := by
  refine mapFailure ((use ⟨fun _ _ => reported _, fun _ _ => trivial⟩).seq fun names => lift ?_)
  refine (Version.sortTags_ends names).mono ?_
  rintro _ (⟨count, rfl, more⟩ | ⟨misuse, rfl⟩)
  · exact long _ ⟨count, rfl, more⟩
  · exact reported _

end Act.Ends

/-- A reply that lists an entry, among the values of its one field. -/
def Reply.Lists (reply : Reply) (item : Datum) : Prop :=
  ∃ value list items, reply.value? = some value ∧ value.field "value" = .ok list ∧
    list.elements = .ok items ∧ item ∈ items

/-- Exchanges of which one was answered with a reply that lists an entry. -/
def ListedIn (held : List Exchange) (item : Datum) : Prop :=
  ∃ request reply, (request, .reply reply) ∈ held ∧ Reply.Lists reply item

theorem ListedIn.onward {held more : List Exchange} {item : Datum} (listed : ListedIn held item) :
    ListedIn (held ++ more) item := by
  obtain ⟨request, reply, member, lists⟩ := listed
  exact ⟨request, reply, List.mem_append_left more member, lists⟩

namespace AzureDevOps

variable {client : Client} {known : List Exchange}

theorem decode_ensures {draft : Client.Draft} {reply : Reply} :
    Ensures (fun _ _ => True) known (client.decode draft reply) fun all value =>
      all = known ∧ reply.value? = some value := by
  unfold Client.decode
  dsimp only
  split
  · rename_i value written
    exact .pure ⟨rfl, written⟩
  · exact .fail

theorem pages_listed {path token : String} {parameters : Parameters} {most : Nat} :
    Ensures (fun _ _ => True) known (pages client path parameters most token) fun all items =>
      ∀ item ∈ items, ListedIn all item := by
  induction most generalizing token known with
  | zero => exact .pure nofun
  | succ most ih =>
    refine (Ensures.request trivial).bind fun more reply ⟨same, _⟩ => ?_
    refine decode_ensures.bind fun later value ⟨unchanged, written⟩ => ?_
    obtain ⟨request, held⟩ : ∃ request, (request, Answer.reply reply) ∈ known ++ more ++ later := by
      rw [unchanged, same]
      exact ⟨_, List.mem_append_right known List.mem_cons_self⟩
    have replied : Ensures (fun _ _ => True) (known ++ more ++ later)
        (client.expecting "list" (Act.use (do (← value.field "value").elements))) fun all batch =>
          ∀ item ∈ batch, ListedIn all item := by
      refine .mapFailure (.use fun batch found item member => ?_)
      obtain ⟨list, field, elements⟩ := Result.bind_eq_ok.mp found
      have lists : Reply.Lists reply item := ⟨value, list, batch, written, field, elements, member⟩
      exact ⟨request, reply, held, lists⟩
    refine replied.bind fun last batch listed => ?_
    dsimp only
    split
    · exact .pure listed
    · refine ih.bind fun further rest others => .pure (List.forall_mem_append.mpr ⟨?_, others⟩)
      exact fun item member => (listed item member).onward

/-- What a listing gives stands in the replies to it. -/
theorem collect_listed {path : String} {parameters : Parameters} {wire : Wire} {items : List Datum}
    (collected : (collect client path parameters wire).result = .ok items) :
    ∀ item ∈ items, ∃ reply, .reply reply ∈ wire ∧ Reply.Lists reply item := by
  intro item member
  have enough : Ensures (fun _ _ => True) [] Client.enough fun _ _ => True :=
    .of_silent (fun _ => rfl) (fun _ => rfl) fun _ _ _ => trivial
  have ensured : Ensures (fun _ _ => True) [] (collect client path parameters) fun all items =>
      ∀ item ∈ items, ListedIn all item :=
    enough.bind fun _ _ _ => pages_listed
  obtain ⟨request, reply, held, lists⟩ := ensured.post wire items collected item member
  rcases mem_of_mem_exchanges held with scripted | missing
  · exact ⟨reply, scripted, lists⟩
  · -- Once the script has run out, a reply writes nothing.
    obtain ⟨value, list, others, written, _⟩ := lists
    cases missing
    have nothing : Reply.value? ⟨404, [], "no scripted response"⟩ = none := by decide +kernel
    cases nothing.symm.trans written

end AzureDevOps

/-- The failures of a service's operations that are no reports. -/
inductive Overlooked (service : String) (wire : Wire) : Call → Failure → Prop where
  /-- A listing gave a default branch that is no text. -/
  | branch {call : Call} {repository : Repository} (other : service ≠ "azuredevops")
      (about : call.repository? = some repository) (reads : call.readsBranch = true)
      (odd : repository.defaultBranch.Odd) : Overlooked service wire call (.misuse .noMember)
  /-- The branch to start from is no text. -/
  | base {repository : Repository} {input : BranchInput} (odd : input.baseBranch.Odd) :
      Overlooked service wire (.createBranch repository input) (.misuse .noMember)
  /-- The branch to merge into is no text. -/
  | target {repository : Repository} {input : PullRequestInput} (odd : input.targetBranch.Odd) :
      Overlooked service wire (.openPullRequest repository input) (.misuse .noMember)
  /-- A listing gave an id that is no text, or a name where there is no id. -/
  | identity {call : Call} {repository : Repository} (azure : service = "azuredevops")
      (about : call.repository? = some repository)
      (odd : (repository.id.orElse repository.name).Odd) :
      Overlooked service wire call (.misuse .unsupported)
  /-- A listing gives a project whose name is no text. -/
  | project {organization : String} {reply : Reply} {project name : Datum}
      (azure : service = "azuredevops") (scripted : .reply reply ∈ wire)
      (listed : reply.Lists project) (named : project.field "name" = .ok name) (odd : name.Odd) :
      Overlooked service wire (.discover organization) (.misuse .unsupported)
  /-- A tag has a number that is too long to be read. -/
  | number {repository : Repository} {cause : Failure} (long : cause.IsLong) :
      Overlooked service wire (.listTags repository) cause

/-- The failures of a service's operations: reports, and those that it overlooks. -/
def MayFail (service : String) (wire : Wire) (call : Call) (cause : Failure) : Prop :=
  cause.IsReport ∨ Overlooked service wire call cause

theorem MayFail.report {service : String} {wire : Wire} {call : Call} (message : String) :
    MayFail service wire call (.host message) :=
  .inl ⟨message, rfl⟩

namespace GitHub

theorem perform_ends (client : Client) (wire : Wire) (call : Call) :
    Ends (MayFail "github" wire call) ((host client).perform call) fun _ => True := by
  have rules := @Ends.replyRules (MayFail "github" wire call) MayFail.report
  have requests (draft : Client.Draft) (_ : (client.requestOf draft).names "base_tree" = false) :
      Ends (MayFail "github" wire call) (client.request draft) fun _ => True :=
    Ends.request MayFail.report draft
  have branch {repository : Repository} (about : call.repository? = some repository)
      (reads : call.readsBranch = true) :
      Ends (MayFail "github" wire call) (Shapes.defaultBranch repository : Act Wire String) fun _ => True :=
    Ends.branchOf fun odd => .inr (.branch (by decide) about reads odd)
  cases call with
  | discover organization => exact discover_goes rules requests (Ends _ · fun _ => True) Ends.attempts
  | listFiles repository suffix => exact listFiles_goes rules requests (branch rfl rfl)
  | fetchFile repository path => exact fetchFile_goes rules requests (branch rfl rfl)
  | listTags repository =>
    exact listTags_goes rules requests (Ends.sorts MayFail.report fun _ long => .inr (.number long))
  | hasFile repository path =>
    exact hasFile_goes rules (branch rfl rfl) fun draft _ => rules.exist Ends.send
  | createBranch repository input =>
    exact createBranch_goes rules (Ends.branchOf fun odd => .inr (.base odd)) (Ends.request MayFail.report)
  | openPullRequest repository input =>
    exact openPullRequest_goes rules requests (Ends.branchOf fun odd => .inr (.target odd))
  | pullRequestExists repository branch => exact pullRequestExists_goes rules requests
  | close => exact rules.pure

end GitHub

namespace GitLab

theorem perform_ends (client : Client) (wire : Wire) (call : Call) :
    Ends (MayFail "gitlab" wire call) ((host client).perform call) fun _ => True := by
  have rules := @Ends.replyRules (MayFail "gitlab" wire call) MayFail.report
  have requests (draft : Client.Draft) (_ : (client.requestOf draft).names "actions" = false) :
      Ends (MayFail "gitlab" wire call) (client.request draft) fun _ => True :=
    Ends.request MayFail.report draft
  have branch {repository : Repository} (about : call.repository? = some repository)
      (reads : call.readsBranch = true) :
      Ends (MayFail "gitlab" wire call) (Shapes.defaultBranch repository : Act Wire String) fun _ => True :=
    Ends.branchOf fun odd => .inr (.branch (by decide) about reads odd)
  cases call with
  | discover organization => exact discover_goes rules requests (Ends _ · fun _ => True) Ends.attempts
  | listFiles repository suffix => exact listFiles_goes rules requests (branch rfl rfl)
  | fetchFile repository path => exact fetchFile_goes rules requests (branch rfl rfl)
  | listTags repository =>
    exact listTags_goes rules requests (Ends.sorts MayFail.report fun _ long => .inr (.number long))
  | hasFile repository path =>
    exact hasFile_goes rules (branch rfl rfl) fun draft _ => rules.exist Ends.send
  | createBranch repository input =>
    exact createBranch_goes rules (Ends.branchOf fun odd => .inr (.base odd)) (Ends.request MayFail.report)
  | openPullRequest repository input =>
    exact openPullRequest_goes_alike rules requests (Ends.branchOf fun odd => .inr (.target odd))
      fun ends => (Ends.attempt (ends.mono fun _ bad _ => bad)).weaken fun _ _ => trivial
  | pullRequestExists repository branch => exact pullRequestExists_goes rules requests
  | close => exact rules.pure

end GitLab

namespace AzureDevOps

/-- A repository whose default branch and project are texts, as every listing gives them. -/
structure Sound (repository : Repository) : Prop where
  branch : ∃ text, repository.defaultBranch = .text text
  project : ∃ text, repository.project = .text text

theorem segmentOf_ends (value : Datum) :
    Result.Ends (fun cause => cause = .unsupported ∧ value.Odd) (segmentOf value) fun _ =>
      ∃ text, value = .text text :=
  .map (value.textOperand_ends.weaken fun text same => ⟨text, same⟩)

theorem repositoryPath_ends {fatal : Failure → Prop} {repository : Repository} (sound : Sound repository)
    (odd : (repository.id.orElse repository.name).Odd → fatal (.misuse .unsupported)) :
    Ends fatal (repositoryPath repository) fun _ => True := by
  obtain ⟨project, textual⟩ := sound.project
  have behind (opening : String) : Result.Ends (fun cause => fatal (.misuse cause)) (do
      let id ← segmentOf (repository.id.orElse repository.name)
      return opening ++ id) fun _ => True := by
    refine ((segmentOf_ends _).mono ?_).bind fun _ _ => .ok trivial
    rintro _ ⟨rfl, unnamed⟩
    exact odd unnamed
  refine .use ?_
  rw [textual]
  dsimp only
  split
  · exact behind _
  · exact behind _

/-- A repository that an entry of a listing describes is sound. -/
theorem sound_of_enabled {client : Client} {organization name : String} {item : Datum}
    {repository : Repository}
    (found : enabledRepository? client organization (.text name) item = .ok (some repository)) :
    Sound repository := by
  obtain ⟨disabled, _, found⟩ := Result.bind_eq_ok.mp found
  split at found
  · cases found
  · obtain ⟨other, described, same⟩ := Result.bind_eq_ok.mp found
    cases same
    simp only [repositoryOf, Result.bind_eq_ok] at described
    obtain ⟨_, _, _, _, _, _, _, _, _, _, _, _, same⟩ := described
    cases same
    exact ⟨⟨_, rfl⟩, ⟨_, rfl⟩⟩

/-- The repositories of a project are sound. That its name is no text is overlooked. -/
theorem projectRepositories_ends {client : Client} {fatal : Failure → Prop} {organization : String}
    {project : Datum} (reported : ∀ message, fatal (.host message))
    (odd : ∀ name, project.field "name" = .ok name → name.Odd → fatal (.misuse .unsupported)) :
    Ends fatal (projectRepositories client organization project) fun repositories =>
      ∀ repository ∈ repositories, Sound repository := by
  unfold projectRepositories
  cases named : project.field "name" with
  | error cause => exact .fail (reported _)
  | ok name =>
    rw [Client.expecting_ok_bind]
    refine (Ends.use ((segmentOf_ends name).mono ?_)).bind fun segment ⟨text, textual⟩ => ?_
    · rintro _ ⟨rfl, unnamed⟩
      exact odd name named unnamed
    · subst textual
      refine Ends.seq (collect_goes (Ends.replyRules reported) fun draft _ =>
        Ends.request reported draft) fun items => ?_
      refine .mapFailure ((Ends.use (.known fun _ _ => reported _)).bind fun found same => ?_)
      refine .pure fun repository member => ?_
      obtain ⟨entry, inside, described⟩ := List.mem_filterMap.mp member
      cases described
      obtain ⟨item, _, enabled⟩ := Result.mem_of_mapM_eq_ok same inside
      exact sound_of_enabled enabled

/-- The repositories of an organization are sound. That the name of a project is no text is
overlooked. -/
theorem discover_ends (client : Client) (organization : String) (wire : Wire) :
    Result.Ends (MayFail "azuredevops" wire (.discover organization))
      (discover client organization wire).result fun repositories =>
        ∀ repository ∈ repositories, Sound repository := by
  have collected : Ends (MayFail "azuredevops" wire (.discover organization))
      (collect client ("/" ++ Text.Percent.segment organization ++ "/_apis/projects") []) fun _ => True :=
    collect_goes (Ends.replyRules MayFail.report) fun draft _ => Ends.request MayFail.report draft
  have begun := collected wire
  have listed := @collect_listed client ("/" ++ Text.Percent.segment organization ++ "/_apis/projects") [] wire
  unfold discover
  rw [bind_apply]
  generalize collect client ("/" ++ Text.Percent.segment organization ++ "/_apis/projects") [] wire =
    outcome at begun listed
  obtain ⟨result, events, left⟩ := outcome
  cases result with
  | error cause => exact .error (begun.fails cause rfl)
  | ok projects =>
    have each : ∀ project ∈ projects, Ends (MayFail "azuredevops" wire (.discover organization))
        (projectRepositories client organization project) fun repositories =>
          ∀ repository ∈ repositories, Sound repository := by
      intro project member
      obtain ⟨reply, scripted, lists⟩ := listed rfl project member
      exact projectRepositories_ends MayFail.report fun name named odd =>
        .inr (.project rfl scripted lists named odd)
    refine ((Ends.rules.mapM each).bind fun repositories sound => ?_) left
    refine .pure fun repository member => ?_
    obtain ⟨some, inside, here⟩ := List.mem_flatten.mp member
    exact sound some inside repository here

theorem perform_ends (client : Client) (wire : Wire) (call : Call)
    (sound : ∀ repository, call.repository? = some repository → Sound repository) :
    Result.Ends (MayFail "azuredevops" wire call) ((host client).perform call wire).result
      fun _ => True := by
  have rules := @Ends.replyRules (MayFail "azuredevops" wire call) MayFail.report
  have requests (draft : Client.Draft) (_ : (client.requestOf draft).names "commits" = false) :
      Ends (MayFail "azuredevops" wire call) (client.request draft) fun _ => True :=
    Ends.request MayFail.report draft
  have place {repository : Repository} (about : call.repository? = some repository) :
      Ends (MayFail "azuredevops" wire call) (repositoryPath repository) fun _ => True :=
    repositoryPath_ends (sound repository about) fun odd => .inr (.identity rfl about odd)
  have branch {repository : Repository} (about : call.repository? = some repository) :
      Ends (MayFail "azuredevops" wire call) (Shapes.defaultBranch repository : Act Wire String)
        fun _ => True := by
    obtain ⟨text, textual⟩ := (sound repository about).branch
    exact Ends.branchOf fun odd => absurd textual (odd text)
  cases call with
  | discover organization => exact (discover_ends client organization wire).weaken fun _ _ => trivial
  | listFiles repository suffix => exact listFiles_goes rules requests (place rfl) (branch rfl) wire
  | fetchFile repository path => exact fetchFile_goes rules requests (place rfl) (branch rfl) wire
  | listTags repository =>
    exact listTags_goes rules requests (place rfl)
      (Ends.sorts MayFail.report fun _ long => .inr (.number long)) wire
  | hasFile repository path =>
    exact hasFile_goes rules (place rfl) (branch rfl) (fun draft _ => rules.exist Ends.send) wire
  | createBranch repository input =>
    exact createBranch_goes rules (place rfl) (Ends.branchOf fun odd => .inr (.base odd))
      (Ends.request MayFail.report) wire
  | openPullRequest repository input =>
    exact openPullRequest_goes_alike rules requests (place rfl)
      (Ends.branchOf fun odd => .inr (.target odd))
      (fun ends => (Ends.attempt (ends.mono fun _ bad _ => bad)).weaken fun _ _ => trivial) wire
  | pullRequestExists repository branch => exact pullRequestExists_goes rules requests (place rfl) wire
  | close => exact rules.pure wire

end AzureDevOps

/-- Calls each of which is about a repository that an earlier listing gave. -/
def OnDiscovered (responses : List Response) : Prop :=
  ∀ before response after, responses = before ++ response :: after →
    ∀ repository, response.call.repository? = some repository →
      ∃ organization repositories, ⟨.discover organization, .ok repositories⟩ ∈ before ∧
        repository ∈ repositories

namespace OnDiscovered

theorem nil : OnDiscovered [] :=
  fun before _ _ split => by cases before <;> cases split

/-- One more call, about a repository that was listed if it is about one. -/
theorem snoc {responses : List Response} {response : Response} (earlier : OnDiscovered responses)
    (listed : ∀ repository, response.call.repository? = some repository →
      ∃ organization repositories, ⟨.discover organization, .ok repositories⟩ ∈ responses ∧
        repository ∈ repositories) : OnDiscovered (responses ++ [response]) := by
  intro before other after split repository about
  rcases append_split split with ⟨rest, front⟩ | ⟨rest, front, back⟩
  · exact earlier before other rest front repository about
  · cases rest with
    | nil =>
      obtain ⟨rfl, _⟩ := List.cons.inj back
      rw [front, List.append_nil]
      exact listed repository about
    | cons first rest => cases rest <;> cases (List.cons.inj back).2

variable {σ : Type} {host : Host σ} {state : σ} {organization : String}

/-- A listing on its own. -/
theorem discover : OnDiscovered (host.responses state [.discover organization]) :=
  OnDiscovered.nil.snoc nofun

theorem discover_then {call : Call} {repositories : List Repository}
    (listed : (host.perform (.discover organization) state).result = .ok repositories)
    (about : ∀ repository, call.repository? = some repository → repository ∈ repositories) :
    OnDiscovered (host.responses state [.discover organization, call]) := by
  have first : host.responses state [.discover organization] =
      [⟨.discover organization, .ok repositories⟩] := by
    simp only [Host.responses, listed]
  have both := host.responses_append state [.discover organization] [call]
  rw [first] at both
  refine both ▸ snoc (first ▸ discover) fun repository here => ?_
  exact ⟨organization, repositories, List.mem_cons_self, about repository here⟩

end OnDiscovered

/-- The last call is answered from the state that the calls before it left. -/
theorem Host.mem_responses_concat {σ : Type} {host : Host σ} {state : σ} {asked : List Call}
    {call : Call} {answer : Except Failure call.Answer}
    (answered : (host.perform call (host.after state asked)).result = answer) :
    ⟨call, answer⟩ ∈ host.responses state (asked ++ [call]) := by
  rw [Host.responses_append, ← answered]
  exact List.mem_append_right _ List.mem_cons_self

namespace HostType

/-- What is left of a script after some calls. -/
theorem after_subset {hostType : HostType} (member : hostType ∈ builtin) (client : Client)
    (wire : Wire) (asked : List Call) : (hostType.host client).after wire asked ⊆ wire := by
  induction asked generalizing wire with
  | nil => exact fun _ => id
  | cons call asked ih =>
    intro answer left
    have rest := (builtin_heeds hostType member client call).state wire
    have here : answer ∈ ((hostType.host client).perform call wire).state := ih _ left
    rw [rest] at here
    exact List.mem_of_mem_drop here

/-- Repositories that were listed are sound where it matters. -/
theorem azure_sound {client : Client} {wire : Wire} {asked : List Call} {organization : String}
    {repositories : List Repository} {repository : Repository}
    (listed : ⟨.discover organization, .ok repositories⟩ ∈
      (AzureDevOps.host client).responses wire asked)
    (member : repository ∈ repositories) : AzureDevOps.Sound repository := by
  obtain ⟨before, after, split⟩ := List.append_of_mem listed
  have given := (AzureDevOps.host client).answer_of_responses_eq split
  have ends := AzureDevOps.discover_ends client organization
    ((AzureDevOps.host client).after wire (before.map Response.call))
  exact ends.gives repositories given.symm repository member

end HostType

/-- More of a script overlooks more. -/
theorem MayFail.mono {service : String} {wire more : Wire} {call : Call} {cause : Failure}
    (may : MayFail service wire call cause) (within : wire ⊆ more) : MayFail service more call cause := by
  refine may.imp_right fun overlooked => ?_
  cases overlooked with
  | branch other about reads odd => exact .branch other about reads odd
  | base odd => exact .base odd
  | target odd => exact .target odd
  | identity azure about odd => exact .identity azure about odd
  | project azure scripted listed named odd => exact .project azure (within scripted) listed named odd
  | number long => exact .number long

/-- A reply whose body is read as it stands: no escape in it writes half of a pair of surrogates. -/
def Reply.Paired (reply : Reply) : Prop :=
  Json.isPaired (reply.body.toList.length + 1) reply.body.toList = true

/-- A script of replies that are read as they stand. -/
def Wire.Paired (wire : Wire) : Prop :=
  ∀ reply, .reply reply ∈ wire → reply.Paired

/-- Whatever the replies to a built-in host are that are read as they stand, what it is asked about the
repositories that it listed either succeeds, or fails by a report, or fails over one of the values that
it overlooks. Of a text with half of a pair of surrogates nothing is said: it cannot be encoded, and
what is made of it here is another text. -/
theorem failures_are_told : ∀ hostType ∈ HostType.builtin, ∀ client wire asked, Wire.Paired wire →
    OnDiscovered ((hostType.host client).responses wire asked) →
      ∀ response ∈ (hostType.host client).responses wire asked, ∀ cause,
        response.answer = .error cause → MayFail hostType.name wire response.call cause := by
  intro hostType builtin client wire asked _ discovered response member cause failed
  obtain ⟨before, after, split⟩ := List.append_of_mem member
  have given := (hostType.host client).answer_of_responses_eq split
  have within := HostType.after_subset builtin client wire (before.map Response.call)
  refine MayFail.mono ?_ within
  rw [given] at failed
  simp only [HostType.builtin, List.mem_cons, List.not_mem_nil, or_false] at builtin
  rcases builtin with rfl | rfl | rfl
  · refine (AzureDevOps.perform_ends client _ response.call fun repository about => ?_).fails cause failed
    obtain ⟨organization, repositories, listed, inside⟩ := discovered before response after split
      repository about
    have earlier : ⟨.discover organization, .ok repositories⟩ ∈
        (AzureDevOps.host client).responses wire asked :=
      split ▸ List.mem_append_left _ listed
    exact HostType.azure_sound earlier inside
  · exact (GitHub.perform_ends client _ response.call _).fails cause failed
  · exact (GitLab.perform_ends client _ response.call _).fails cause failed

private def anyClient : Client :=
  ⟨"github", GitHub.defaultBase, GitHub.headers "t"⟩

private def oddListing : Wire :=
  [.reply ⟨200, [], "[\x7b\"name\":\"i\",\"default_branch\":5\x7d]"⟩]

private def oddRepository : Repository where
  name := .text "i"
  organization := "o"
  defaultBranch := .int 5
  hostName := "github"

/-- A file is asked for of a repository whose default branch is a number. -/
theorem failures_are_told_sample :
    Wire.Paired oddListing ∧
    OnDiscovered ((GitHub.host anyClient).responses oddListing
      [.discover "o", .fetchFile oddRepository "a.tf"]) ∧
    MayFail "github" oddListing (.fetchFile oddRepository "a.tf") (.misuse .noMember) := by
  have listed : ((GitHub.host anyClient).perform (.discover "o") oddListing).result =
      .ok [oddRepository] := by decide +kernel
  have fails : ((GitHub.host anyClient).perform (.fetchFile oddRepository "a.tf")
      ((GitHub.host anyClient).after oddListing [.discover "o"])).result =
        .error (.misuse .noMember) := by decide +kernel
  have about : ∀ repository, (Call.fetchFile oddRepository "a.tf").repository? = some repository →
      repository ∈ [oddRepository] := by
    intro repository same
    exact Option.some.inj same ▸ List.mem_cons_self
  have discovered := OnDiscovered.discover_then listed about
  have paired : Wire.Paired oddListing := by
    intro reply scripted
    obtain rfl := Answer.reply.inj (List.mem_singleton.mp scripted)
    show Json.isPaired _ _ = true
    decide +kernel
  refine ⟨paired, discovered, ?_⟩
  exact failures_are_told ⟨"github", GitHub.defaultBase, GitHub.headers, GitHub.host⟩
    (by simp [HostType.builtin]) anyClient oddListing _ paired discovered _
    (Host.mem_responses_concat fails) _ rfl

private def oddProjects : Wire :=
  [.reply ⟨200, [], "\x7b\"value\":[\x7b\"name\":5\x7d]\x7d"⟩]

/-- A project whose name is a number ends a listing by a failure that is no report. -/
theorem not_failures_are_reports :
    ¬ ∀ hostType ∈ HostType.builtin, ∀ client wire asked,
      OnDiscovered ((hostType.host client).responses wire asked) →
        ∀ response ∈ (hostType.host client).responses wire asked, ∀ cause,
          response.answer = .error cause → cause.IsReport := by
  intro claimed
  have fails : ((AzureDevOps.host anyClient).perform (.discover "o")
      ((AzureDevOps.host anyClient).after oddProjects [])).result =
        .error (.misuse .unsupported) := by decide +kernel
  have asked : ⟨.discover "o", .error (.misuse .unsupported)⟩ ∈
      (AzureDevOps.host anyClient).responses oddProjects [.discover "o"] :=
    Host.mem_responses_concat fails
  obtain ⟨message, same⟩ := claimed
    ⟨"azuredevops", AzureDevOps.defaultBase, AzureDevOps.headers, AzureDevOps.host⟩
    (by simp [HostType.builtin]) anyClient oddProjects [.discover "o"] OnDiscovered.discover _ asked
    _ rfl
  cases same

end InfraPins
