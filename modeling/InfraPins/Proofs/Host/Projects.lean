import InfraPins.Proofs.Host.Discovery
import InfraPins.Proofs.Text.Percent

namespace InfraPins

open Act

def Request.Below (client : Client) (path : String) (request : Request) : Prop :=
  ∃ draft, request = client.requestOf draft ∧ (path ++ "/").toList <+: draft.path.toList

def Act.Sends (property : Request → Prop) {α : Type} (act : Act Wire α) : Prop :=
  ∀ wire, ∀ request ∈ sent (act wire).events, property request

namespace Act.Sends

variable {property : Request → Prop} {α β : Type}

theorem bind {first : Act Wire α} {next : α → Act Wire β} (head : Sends property first)
    (rest : ∀ value, Sends property (next value)) : Sends property (first >>= next) := by
  intro wire request member
  have begun := head wire
  rw [bind_apply] at member
  generalize first wire = outcome at begun member
  obtain ⟨result, events, left⟩ := outcome
  cases result with
  | error cause => exact begun request member
  | ok value =>
    rw [sent_append] at member
    rcases List.mem_append.mp member with here | later
    · exact begun request here
    · exact rest value left request later

theorem attempt {act : Act Wire α} {message? : Failure → Option String} (sends : Sends property act) :
    Sends property (act.attempt message?) :=
  sends

theorem rules : WireRules fun {α} (act : Act Wire α) => Sends property act where
  pure := fun _ => nofun
  bind := bind
  report := fun _ => nofun
  log := fun _ => nofun
  expect := fun _ => nofun
  lift := fun _ => nofun
  expecting := id
  enough := fun _ => nofun

theorem send {client : Client} {draft : Client.Draft} (allowed : property (client.requestOf draft)) :
    Sends property (client.send draft) := by
  intro wire request member
  rw [Client.send_apply] at member
  exact List.mem_singleton.mp member ▸ allowed

end Act.Sends

namespace GitLab

variable {client : Client} {repository : Repository}

theorem below_append {path rest : String} (start : "/".toList <+: rest.toList) :
    (path ++ "/").toList <+: (path ++ rest).toList := by
  rw [String.toList_append, String.toList_append]
  exact (List.prefix_append_right_inj path.toList).mpr start

theorem below_append_more {path front : String} (below : (path ++ "/").toList <+: front.toList)
    (rest : String) : (path ++ "/").toList <+: (front ++ rest).toList := by
  have longer : front.toList <+: (front ++ rest).toList := by
    rw [String.toList_append]
    exact List.prefix_append _ _
  exact below.trans longer

theorem filePath_below (path : String) :
    (projectPath repository ++ "/").toList <+: (filePath repository path).toList :=
  below_append_more (below_append (by decide)) _

/-- All that is asked about a project is asked below its path. -/
theorem perform_below {call : Call} (about : call.repository? = some repository) :
    Sends (Request.Below client (projectPath repository)) ((host client).perform call) := by
  have rules : WireRules fun {α} (act : Act Wire α) =>
    Sends (Request.Below client (projectPath repository)) act := Sends.rules
  have sends (draft : Client.Draft) (below : (projectPath repository ++ "/").toList <+: draft.path.toList) :
      Sends (Request.Below client (projectPath repository)) (client.send draft) :=
    Sends.send ⟨draft, rfl, below⟩
  have requests (draft : Client.Draft)
      (below : (projectPath repository ++ "/").toList <+: draft.path.toList) :
      Sends (Request.Below client (projectPath repository)) (client.request draft) :=
    rules.request (sends draft below)
  cases call with
  | discover organization => cases about
  | close => cases about
  | listFiles other suffix =>
    obtain rfl := Option.some.inj about
    refine rules.bind rules.branchOf fun branch => rules.bind ?_ fun nodes => rules.expect_map
    exact paginate_goes_of rules.toReplyRules fun own => requests _ (below_append (by decide))
  | fetchFile other path =>
    obtain rfl := Option.some.inj about
    refine rules.bind rules.branchOf fun branch => rules.bind (requests _ ?_) fun reply => rules.pure
    exact below_append_more (filePath_below path) _
  | listTags other =>
    obtain rfl := Option.some.inj about
    refine rules.bind ?_ fun items => rules.sorts _
    exact paginate_goes_of rules.toReplyRules fun own => requests _ (below_append (by decide))
  | hasFile other path =>
    obtain rfl := Option.some.inj about
    exact rules.bind rules.branchOf fun branch => rules.exist (sends _ (filePath_below path))
  | createBranch other branch =>
    obtain rfl := Option.some.inj about
    refine rules.bind rules.branchOf fun base => rules.bind (requests _ ?_) fun reply => rules.pure
    exact below_append (by decide)
  | openPullRequest other input =>
    obtain rfl := Option.some.inj about
    refine rules.bind rules.branchOf fun target => ?_
    refine rules.bind (rules.requestValue (requests _ (below_append (by decide)))) fun reply => ?_
    refine rules.bind rules.expect fun id => ?_
    have completes : Sends (Request.Below client (projectPath other)) (enableAutoMerge client other id) := by
      have asks := requests
        { method := "PUT", path := projectPath other ++ "/merge_requests/" ++ id.plain ++ "/merge",
          body := some (.ofFields [("merge_when_pipeline_succeeds", .bool true)]) }
        (below_append_more (below_append_more (below_append (by decide)) _) _)
      refine rules.bind (Sends.attempt asks) fun came => ?_
      cases came with
      | ok reply => exact rules.pure
      | error message => exact rules.log
    split
    · exact rules.bind completes fun _ => rules.bind rules.use fun ⟨_, _, _⟩ => rules.pure
    · exact rules.bind rules.use fun ⟨_, _, _⟩ => rules.pure
  | pullRequestExists other branch =>
    obtain rfl := Option.some.inj about
    refine rules.bind (rules.requestList (requests _ ?_)) fun found => rules.pure
    exact below_append (by decide)

/-- What a discovered repository keeps of the project that it is. -/
structure Keeps (organization : String) (item : Datum) (repository : Repository) : Prop where
  organization : repository.organization = organization
  name : item.field "path" = .ok repository.name
  id : ∃ id, item.fieldOr "id" (.text "") = .ok id ∧ repository.id = .text id.plain

theorem keeps_of_repositoryOf {organization : String} {item : Datum}
    (described : repositoryOf client organization item = .ok repository) :
    Keeps organization item repository := by
  obtain ⟨id, identified, described⟩ := Result.bind_eq_ok.mp described
  obtain ⟨name, named, described⟩ := Result.bind_eq_ok.mp described
  obtain ⟨branch, _, described⟩ := Result.bind_eq_ok.mp described
  obtain ⟨remoteUrl, _, described⟩ := Result.bind_eq_ok.mp described
  obtain ⟨sshUrl, _, described⟩ := Result.bind_eq_ok.mp described
  obtain rfl := Except.ok.inj described
  exact ⟨rfl, named, id, identified, rfl⟩

theorem keeps_of_discover {organization : String} {wire : Wire} {repositories : List Repository}
    (listed : (discover client organization wire).result = .ok repositories) :
    ∃ items, List.Forall₂ (Keeps organization) items repositories := by
  have described {items : List Datum} (gives : Result.Gives
      (items.mapM (repositoryOf client organization)).toOption (.ok repositories)) :
      List.Forall₂ (Keeps organization) items repositories := by
    cases found : items.mapM (repositoryOf client organization) with
    | error cause =>
      rw [found] at gives
      cases gives
    | ok others =>
      rw [found] at gives
      cases gives
      exact (Result.mapM_eq_ok.mp found).imp fun _ _ => keeps_of_repositoryOf
  have came := (discover_speaks client organization).post wire
  rw [listed] at came
  generalize exchanges wire (sent (discover client organization wire).events) = held at came
  cases came with
  | listed _ gives => exact ⟨_, described gives⟩
  | elsewhere _ turned =>
    cases turned with
    | listed _ gives => exact ⟨_, described gives⟩

/-- Within an organization, the path of a project is told by its name, and tells it. -/
theorem projectPath_eq_iff {left right : Repository} (same : left.organization = right.organization) :
    projectPath left = projectPath right ↔ left.name.plain = right.name.plain := by
  unfold projectPath Repository.fullName
  constructor
  · intro equal
    have segment := Text.Percent.segment_injective ((String.append_right_inj _).mp equal)
    rw [same] at segment
    exact (String.append_right_inj _).mp segment
  · intro equal
    rw [same, equal]

end GitLab

/-- All that is asked about a discovered project is asked below a path that is told by the name which the
project has at the end of its own path, so two of them are addressed alike exactly where those names are
the same. What else a project is listed with, its id before all, does not tell them apart. -/
theorem projects_are_told_by_name (client : Client) (organization : String) (wire : Wire)
    (repositories : List Repository)
    (listed : (GitLab.discover client organization wire).result = .ok repositories) :
    (∃ items, List.Forall₂ (GitLab.Keeps organization) items repositories) ∧
    (∀ repository ∈ repositories, ∀ call, call.repository? = some repository →
      Sends (Request.Below client (GitLab.projectPath repository)) ((GitLab.host client).perform call)) ∧
    ∀ left ∈ repositories, ∀ right ∈ repositories,
      GitLab.projectPath left = GitLab.projectPath right ↔ left.name.plain = right.name.plain := by
  obtain ⟨items, keeps⟩ := GitLab.keeps_of_discover listed
  refine ⟨⟨items, keeps⟩, fun repository _ call about => GitLab.perform_below about, ?_⟩
  intro left first right second
  obtain ⟨_, _, kept⟩ := Result.exists_of_mem_left keeps.flip first
  obtain ⟨_, _, kept'⟩ := Result.exists_of_mem_left keeps.flip second
  exact GitLab.projectPath_eq_iff (kept.organization.trans kept'.organization.symm)

private def nestedProjects : Wire :=
  [.reply ⟨200, [], "[\x7b\"id\":1,\"path\":\"net\",\"path_with_namespace\":\"acme/net\"\x7d," ++
    "\x7b\"id\":2,\"path\":\"net\",\"path_with_namespace\":\"acme/sub/net\"\x7d]"⟩]

private def nestedRepository (id : String) : Repository where
  name := .text "net"
  organization := "acme"
  id := .text id
  hostName := "gitlab"

theorem projects_are_told_by_name_sample :
    (GitLab.discover GitLab.plainClient "acme" nestedProjects).result =
      .ok [nestedRepository "1", nestedRepository "2"] ∧
    GitLab.projectPath (nestedRepository "1") = GitLab.projectPath (nestedRepository "2") := by
  have listed : (GitLab.discover GitLab.plainClient "acme" nestedProjects).result =
      .ok [nestedRepository "1", nestedRepository "2"] := by decide +kernel
  obtain ⟨_, _, told⟩ := projects_are_told_by_name GitLab.plainClient "acme" nestedProjects _ listed
  refine ⟨listed, ?_⟩
  exact (told (nestedRepository "1") (by simp) (nestedRepository "2") (by simp)).mpr rfl

/-- Projects with different ids need not be addressed by different paths. -/
theorem not_projects_are_told_by_id :
    ¬ ∀ client organization wire repositories,
      (GitLab.discover client organization wire).result = .ok repositories →
      ∀ left ∈ repositories, ∀ right ∈ repositories, left.id ≠ right.id →
        GitLab.projectPath left ≠ GitLab.projectPath right := by
  intro distinct
  have listed : (GitLab.discover GitLab.plainClient "acme" nestedProjects).result =
      .ok [nestedRepository "1", nestedRepository "2"] := by decide +kernel
  have apart : (nestedRepository "1").id ≠ (nestedRepository "2").id := by decide
  exact distinct GitLab.plainClient "acme" nestedProjects _ listed (nestedRepository "1") (by simp)
    (nestedRepository "2") (by simp) apart rfl

end InfraPins
