import InfraPins.Proofs.Host.Builtin
import InfraPins.Proofs.Wire.Success

/-! Success of a host's operations. Whatever is asked of a built-in host, it goes on only after replies
that report no failure, with the exceptions that its operations are made for: a file that is not found
is absent, an organization that cannot be listed is looked for elsewhere, and a pull request that cannot
be completed on its own stays open. -/

namespace InfraPins

open Act

/-- How an operation heeds the answers to its requests. A file is absent if the reply is that it is not
found; an organization is looked for elsewhere if the first listing fails; and a pull request is open
although the last request failed, which was for its completion, with a warning. -/
inductive CallHeeded (client : Client) (accepted : Answer → Prop) :
    (call : Call) → List Exchange → List Event → Except Failure call.Answer → Prop where
  | straight {call : Call} {held : List Exchange} {events : List Event}
      {result : Except Failure call.Answer} (other : ∀ repository path, call ≠ .hasFile repository path)
      (heeded : Heeded client accepted held result) :
      CallHeeded client accepted call held events result
  | present {repository : Repository} {path : String} {held : List Exchange} {events : List Event}
      {result : Except Failure Bool} (found : ∀ exchange ∈ held, ¬ exchange.2.IsNotFound)
      (heeded : Heeded client accepted held result) :
      CallHeeded client accepted (.hasFile repository path) held events result
  | absent {repository : Repository} {path : String} {request : Request} {answer : Answer}
      {events : List Event} (notFound : answer.IsNotFound) :
      CallHeeded client accepted (.hasFile repository path) [(request, answer)] events (.ok false)
  | elsewhere {organization : String} {front rest : List Exchange} {last : Exchange}
      {events : List Event} {result : Except Failure (List Repository)}
      (smooth : Smooth accepted front) (failed : ¬ accepted last.2)
      (heeded : Heeded client accepted rest result) :
      CallHeeded client accepted (.discover organization) (front ++ last :: rest) events result
  | unattended {repository : Repository} {input : PullRequestInput} {front : List Exchange}
      {last : Exchange} {events : List Event} {request : PullRequest} {text : String}
      (wanted : input.autoComplete = true) (smooth : Smooth accepted front)
      (failed : ¬ accepted last.2) (warned : .log .warning text ∈ events) :
      CallHeeded client accepted (.openPullRequest repository input) (front ++ [last]) events
        (.ok request)

namespace CallHeeded

variable {client : Client} {accepted : Answer → Prop} {call : Call} {held more : List Exchange}
  {events later : List Event}

theorem behind {result : Except Failure call.Answer}
    (other : ∀ repository path, call ≠ .hasFile repository path) (smooth : Smooth accepted held)
    (heeded : CallHeeded client accepted call more later result) :
    CallHeeded client accepted call (held ++ more) (events ++ later) result := by
  cases heeded with
  | straight _ heeded => exact .straight other (heeded.behind smooth)
  | present => exact absurd rfl (other _ _)
  | absent => exact absurd rfl (other _ _)
  | elsewhere rest failed heeded =>
    rw [← List.append_assoc]
    exact .elsewhere (List.forall_mem_append.mpr ⟨smooth, rest⟩) failed heeded
  | unattended wanted rest failed warned =>
    rw [← List.append_assoc]
    exact .unattended wanted (List.forall_mem_append.mpr ⟨smooth, rest⟩) failed
      (List.mem_append_right events warned)

/-- Whether a file is there does not turn on the journal. -/
theorem logged {repository : Repository} {path : String} {result : Except Failure Bool}
    (heeded : CallHeeded client accepted (.hasFile repository path) held later result) :
    CallHeeded client accepted (.hasFile repository path) held events result := by
  cases heeded with
  | straight other heeded => exact .straight other heeded
  | present found heeded => exact .present found heeded
  | absent notFound => exact .absent notFound

/-- Answers that are acceptable alike are heeded alike. -/
theorem congr {wanted : Answer → Prop} {result : Except Failure call.Answer}
    (same : ∀ exchange ∈ held, accepted exchange.2 ↔ wanted exchange.2)
    (heeded : CallHeeded client accepted call held events result) :
    CallHeeded client wanted call held events result := by
  cases heeded with
  | straight other heeded => exact .straight other (heeded.congr same)
  | present found heeded => exact .present found (heeded.congr same)
  | absent notFound => exact .absent notFound
  | elsewhere smooth failed heeded =>
    obtain ⟨before, behind⟩ := List.forall_mem_append.mp same
    obtain ⟨here, after⟩ := List.forall_mem_cons.mp behind
    exact .elsewhere (smooth.congr before) (mt here.mpr failed) (heeded.congr after)
  | unattended asked smooth failed warned =>
    obtain ⟨before, behind⟩ := List.forall_mem_append.mp same
    exact .unattended asked (smooth.congr before)
      (mt (List.forall_mem_singleton.mp behind).mpr failed) warned

end CallHeeded

namespace Act.Heeds

variable {client : Client} {α : Type} (call : Call)

/-- An operation that goes on only after replies that report no failure, whatever it is part of. -/
theorem straight {act : Act Wire call.Answer} (other : ∀ repository path, call ≠ .hasFile repository path)
    (heeds : Heeds client act) : Speaks act (CallHeeded client Answer.Passes call) :=
  Speaks.weaken heeds fun _ _ _ => .straight other

theorem onward {first : Act Wire α} {next : α → Act Wire call.Answer}
    (other : ∀ repository path, call ≠ .hasFile repository path) (head : Heeds client first)
    (rest : ∀ value, Speaks (next value) (CallHeeded client Answer.Passes call)) :
    Speaks (first >>= next) (CallHeeded client Answer.Passes call) := by
  refine Speaks.bind head ?_ fun _ _ _ came => .straight other came.failing
  intro held events value came
  exact (rest value).weaken fun _ _ _ => .behind other came.smooth_of_ok

end Act.Heeds

section Asks

variable {client : Client} {repository : Repository}

theorem hasFile_heeds {path : String} {first : Act Wire α} {next : α → Act Wire Bool}
    (silent : Speaks first fun held _ _ => held = [])
    (rest : ∀ value, Speaks (next value) (CallHeeded client Answer.Passes (.hasFile repository path))) :
    Speaks (first >>= next) (CallHeeded client Answer.Passes (.hasFile repository path)) := by
  refine silent.bind ?_ ?_
  · rintro held events value rfl
    exact (rest value).weaken fun more later result heeded => heeded.logged
  · rintro held events cause rfl
    exact .present (List.forall_mem_nil _) (.passed (List.forall_mem_nil _))

theorem exist_heeds {path : String} {draft : Client.Draft} :
    Speaks (client.exist draft) (CallHeeded client Answer.Passes (.hasFile repository path)) := by
  refine (Heeds.exist client draft).weaken ?_
  rintro held events result ⟨answer, rfl, ⟨notFound, rfl⟩ | ⟨found, heeded⟩⟩
  · exact .absent notFound
  · exact .present (List.forall_mem_singleton.mpr found) heeded

/-- What has to be a text is not asked for. -/
theorem branchOf_asksNothing {branch : Datum} :
    Speaks (Shapes.branchOf branch) fun held _ _ => held = [] := by
  cases branch
  case text => exact .of_silent (fun _ => rfl) (fun _ => rfl) fun _ => rfl
  all_goals exact .of_silent (fun _ => rfl) (fun _ => rfl) fun _ => rfl

/-- A listing that may fail, and what is done after it. -/
theorem discover_heeds {organization : String} {first : Act Wire α}
    {next : Except String α → Act Wire (List Repository)} (head : Heeds client first)
    (rest : ∀ listed, Heeds client (next listed)) :
    Speaks (first.attempt Failure.hostMessage? >>= next)
      (CallHeeded client Answer.Passes (.discover organization)) := by
  refine (Speaks.attempt head).bind ?_ ?_
  · rintro held events listed (⟨value, same, heeded⟩ | ⟨cause, message, same, _, heeded⟩ | ⟨_, same, _⟩)
    · obtain rfl := Except.ok.inj same
      exact (rest _).weaken fun more _ result onward => .straight nofun (onward.behind heeded.smooth_of_ok)
    · obtain rfl := Except.ok.inj same
      refine (rest _).weaken fun more _ result onward => ?_
      cases heeded with
      | passed smooth => exact .straight nofun (onward.behind smooth)
      | stopped smooth failed _ =>
        rw [List.append_assoc]
        exact .elsewhere smooth failed onward
    · cases same
  · rintro held events cause (⟨_, same, _⟩ | ⟨_, _, same, _⟩ | ⟨other, same, _, heeded⟩)
    · cases same
    · cases same
    · obtain rfl := Except.error.inj same
      exact .straight nofun heeded.failing

theorem completes_heeds {input : PullRequestInput} {completion : Act Wire Unit}
    (attended : Speaks completion (Warns Answer.Passes)) (request : PullRequest) :
    Speaks (if input.autoComplete then completion >>= fun _ => pure request else pure request)
      (CallHeeded client Answer.Passes (.openPullRequest repository input)) := by
  by_cases wanted : input.autoComplete = true
  · rw [if_pos wanted]
    refine attended.bind ?_ ?_
    · rintro held events done (smooth | ⟨_, front, other, text, rfl, smooth, failed, warned⟩)
      · refine .of_silent (fun _ => rfl) (fun _ => rfl) fun _ => .straight nofun (.passed ?_)
        rwa [List.append_nil]
      · refine .of_silent (fun _ => rfl) (fun _ => rfl) fun _ => ?_
        rw [List.append_nil]
        exact .unattended wanted smooth failed (List.mem_append_left _ warned)
    · rintro held events cause (smooth | ⟨same, _⟩)
      · exact .straight nofun (.passed smooth)
      · cases same
  · rw [if_neg wanted]
    exact Heeds.straight (.openPullRequest repository input) nofun Heeds.rules.pure

end Asks

namespace GitHub

theorem perform_heeds (client : Client) (call : Call) :
    Speaks ((host client).perform call) (CallHeeded client Answer.Passes call) := by
  have rules := (@Heeds.rules client).toReplyRules
  have requests (draft : Client.Draft) (_ : (client.requestOf draft).names "base_tree" = false) :
      Heeds client (client.request draft) := Heeds.request client draft
  have branch (branch : Datum) : Heeds client (Shapes.branchOf branch) := Heeds.rules.branchOf
  cases call with
  | discover organization =>
    exact discover_goes rules requests
      (Speaks · (CallHeeded client Answer.Passes (.discover organization))) discover_heeds
  | listFiles repository suffix => exact Heeds.straight _ nofun (listFiles_goes rules requests (branch _))
  | fetchFile repository path => exact Heeds.straight _ nofun (fetchFile_goes rules requests (branch _))
  | listTags repository => exact Heeds.straight _ nofun (listTags_goes rules requests Heeds.rules.sorts)
  | hasFile repository path => exact hasFile_heeds branchOf_asksNothing fun _ => exist_heeds
  | createBranch repository input =>
    exact Heeds.straight _ nofun (createBranch_goes rules (branch _) (Heeds.request client))
  | openPullRequest repository input =>
    exact Heeds.straight _ nofun (openPullRequest_goes rules requests (branch _))
  | pullRequestExists repository branch =>
    exact Heeds.straight _ nofun (pullRequestExists_goes rules requests)
  | close => exact Heeds.straight _ nofun rules.pure

end GitHub

namespace GitLab

theorem perform_heeds (client : Client) (call : Call) :
    Speaks ((host client).perform call) (CallHeeded client Answer.Passes call) := by
  have rules := (@Heeds.rules client).toReplyRules
  have requests (draft : Client.Draft) (_ : (client.requestOf draft).names "actions" = false) :
      Heeds client (client.request draft) := Heeds.request client draft
  have branch (branch : Datum) : Heeds client (Shapes.branchOf branch) := Heeds.rules.branchOf
  cases call with
  | discover organization =>
    exact discover_goes rules requests
      (Speaks · (CallHeeded client Answer.Passes (.discover organization))) discover_heeds
  | listFiles repository suffix => exact Heeds.straight _ nofun (listFiles_goes rules requests (branch _))
  | fetchFile repository path => exact Heeds.straight _ nofun (fetchFile_goes rules requests (branch _))
  | listTags repository => exact Heeds.straight _ nofun (listTags_goes rules requests Heeds.rules.sorts)
  | hasFile repository path => exact hasFile_heeds branchOf_asksNothing fun _ => exist_heeds
  | createBranch repository input =>
    exact Heeds.straight _ nofun (createBranch_goes rules (branch _) (Heeds.request client))
  | openPullRequest repository input =>
    exact openPullRequest_goes rules requests
      (Speaks · (CallHeeded client Answer.Passes (.openPullRequest repository input))) (branch _)
      (Heeds.onward (.openPullRequest repository input) nofun)
      (fun _ => .of_silent (fun _ => rfl) (fun _ => rfl) fun _ => .straight nofun (.passed nofun))
      fun _ => completes_heeds (Heeds.optional _ _ _)
  | pullRequestExists repository branch =>
    exact Heeds.straight _ nofun (pullRequestExists_goes rules requests)
  | close => exact Heeds.straight _ nofun rules.pure

end GitLab

namespace AzureDevOps

theorem repositoryPath_asksNothing {repository : Repository} :
    Speaks (repositoryPath repository) fun held _ _ => held = [] :=
  .of_silent (fun _ => rfl) (fun _ => rfl) fun _ => rfl

theorem enableAutoComplete_warns {client : Client} {repository : Repository} {id creator : Datum} :
    Speaks (enableAutoComplete client repository id creator) (Warns Answer.Passes) := by
  unfold enableAutoComplete
  dsimp only
  split
  · refine repositoryPath_asksNothing.bind ?_ ?_
    · rintro held events path rfl
      refine (Heeds.optional client _ _).weaken fun more later result warns => ?_
      rcases warns with smooth | ⟨same, front, last, text, behind, smooth, failed, warned⟩
      · exact .inl smooth
      · exact .inr ⟨same, front, last, text, behind, smooth, failed, List.mem_append_right _ warned⟩
    · rintro held events cause rfl
      exact .inl (List.forall_mem_nil _)
  · exact .of_silent (fun _ => rfl) (fun _ => rfl) fun _ => .inl (List.forall_mem_nil _)

theorem perform_heeds (client : Client) (call : Call) :
    Speaks ((host client).perform call) (CallHeeded client Answer.Passes call) := by
  have rules := (@Heeds.rules client).toReplyRules
  have requests (draft : Client.Draft) (_ : (client.requestOf draft).names "commits" = false) :
      Heeds client (client.request draft) := Heeds.request client draft
  have branch (branch : Datum) : Heeds client (Shapes.branchOf branch) := Heeds.rules.branchOf
  have place (repository : Repository) : Heeds client (repositoryPath repository) := Heeds.rules.use
  cases call with
  | discover organization => exact Heeds.straight _ nofun (discover_goes Heeds.rules requests)
  | listFiles repository suffix =>
    exact Heeds.straight _ nofun (listFiles_goes rules requests (place _) (branch _))
  | fetchFile repository path =>
    exact Heeds.straight _ nofun (fetchFile_goes rules requests (place _) (branch _))
  | listTags repository =>
    exact Heeds.straight _ nofun (listTags_goes rules requests (place _) Heeds.rules.sorts)
  | hasFile repository path =>
    refine hasFile_heeds repositoryPath_asksNothing fun place => hasFile_heeds ?_ fun _ => exist_heeds
    refine branchOf_asksNothing.bind ?_ fun _ _ _ => id
    rintro _ events branch rfl
    exact .of_silent (fun _ => rfl) (fun _ => rfl) fun _ => rfl
  | createBranch repository input =>
    exact Heeds.straight _ nofun (createBranch_goes rules (place _) (branch _) (Heeds.request client))
  | openPullRequest repository input =>
    exact openPullRequest_goes rules requests
      (Speaks · (CallHeeded client Answer.Passes (.openPullRequest repository input))) (place _)
      (branch _) (Heeds.onward (.openPullRequest repository input) nofun)
      (fun _ => .of_silent (fun _ => rfl) (fun _ => rfl) fun _ => .straight nofun (.passed nofun))
      fun _ _ => completes_heeds enableAutoComplete_warns
  | pullRequestExists repository branch =>
    exact Heeds.straight _ nofun (pullRequestExists_goes rules requests (place _))
  | close => exact Heeds.straight _ nofun rules.pure

end AzureDevOps

/-- Every operation of a built-in host goes on only after replies that report no failure. -/
theorem HostType.builtin_heeds : ∀ hostType ∈ builtin, ∀ client call,
    Speaks ((hostType.host client).perform call) (CallHeeded client Answer.Passes call) :=
  List.forall_mem_cons.mpr ⟨AzureDevOps.perform_heeds,
    List.forall_mem_cons.mpr ⟨GitHub.perform_heeds,
      List.forall_mem_singleton.mpr GitLab.perform_heeds⟩⟩

def Answer.Succeeds : Answer → Prop
  | .reply given => 200 ≤ given.status ∧ given.status < 300
  | .timeout _ => False
  | .broken _ => False

end InfraPins
