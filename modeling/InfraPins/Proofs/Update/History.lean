import InfraPins.Proofs.Update.Protocol

/-! Updates of one repository over time. A branch that an update created stays, also when its pull
request could not be opened or was closed since, and a later update that comes to the same branch
name cannot go on. -/

namespace InfraPins.Update

variable {σ : Type} {host : Host σ} {repository : Repository} {has : σ → String → Prop}

/-- A host on which branches are there to stay: one can be created exactly when there is none of its
name, and nothing else adds or removes any. -/
structure KeepsBranches (host : Host σ) (repository : Repository) (has : σ → String → Prop) :
    Prop where
  granted : ∀ input state,
    (host.createBranch repository input state).result = .ok () ↔ ¬ has state input.branchName
  kept : ∀ call state name, has (host.perform call state).state name ↔ has state name ∨
    ∃ input, call = .createBranch repository input ∧ input.branchName = name

/-- An update, and what happened to the host before it from outside. -/
structure Turn (σ : Type) where
  outside : σ → σ
  options : UpdateOptions

def Turn.LeavesBranches (turn : Turn σ) (has : σ → String → Prop) : Prop :=
  ∀ state name, has (turn.outside state) name ↔ has state name

def Turn.outcome (turn : Turn σ) (host : Host σ) (repository : Repository) (state : σ) :
    Outcome σ (List PullRequest) :=
  createPullRequests host repository turn.options (turn.outside state)

def Turn.answers (turn : Turn σ) (host : Host σ) (repository : Repository) (state : σ) :
    List Response :=
  host.responses (turn.outside state) (calls (turn.outcome host repository state).events)

def stateAfter (host : Host σ) (repository : Repository) (state : σ) : List (Turn σ) → σ
  | [] => state
  | turn :: rest =>
    stateAfter host repository (turn.outcome host repository state).state rest

def answersIn (host : Host σ) (repository : Repository) (state : σ) :
    List (Turn σ) → List Response
  | [] => []
  | turn :: rest => turn.answers host repository state ++
      answersIn host repository (turn.outcome host repository state).state rest

/-- Whether a branch was created in the course of some answers. -/
def Created (repository : Repository) (responses : List Response) (name : String) : Prop :=
  ∃ input, ⟨.createBranch repository input, .ok ()⟩ ∈ responses ∧ input.branchName = name

theorem created_append {responses more : List Response} {name : String} :
    Created repository (responses ++ more) name ↔
      Created repository responses name ∨ Created repository more name := by
  simp [Created, or_and_right, exists_or]

private theorem has_perform_iff (keeps : KeepsBranches host repository has) (call : Call) (state : σ)
    (name : String) :
    has (host.perform call state).state name ↔
      has state name ∨ Created repository [⟨call, (host.perform call state).result⟩] name := by
  rw [keeps.kept]
  constructor
  · rintro (before | ⟨input, rfl, rfl⟩)
    · exact .inl before
    · by_cases before : has state input.branchName
      · exact .inl before
      · have granted := (keeps.granted input state).mpr before
        exact .inr ⟨input, List.mem_singleton.mpr (congrArg _ granted.symm), rfl⟩
  · rintro (before | ⟨input, member, rfl⟩)
    · exact .inl before
    · have same := List.mem_singleton.mp member
      exact .inr ⟨input, (congrArg Response.call same).symm, rfl⟩

/-- Some calls: a branch exists after them if it existed before, or was created by one. -/
theorem has_after_iff (keeps : KeepsBranches host repository has) (asked : List Call) (state : σ)
    (name : String) :
    has (host.after state asked) name ↔
      has state name ∨ Created repository (host.responses state asked) name := by
  induction asked generalizing state with
  | nil => simp [Host.after, Host.responses, Created]
  | cons call asked ih =>
    show has (host.after (host.perform call state).state asked) name ↔ _
    rw [ih, has_perform_iff keeps, or_assoc, ← created_append]
    rfl

/-- Some turns: a branch exists after them if it existed before, or was created in one. -/
theorem has_stateAfter_iff (discreet : host.Discreet) (reporting : host.Reporting)
    (keeps : KeepsBranches host repository has) (turns : List (Turn σ))
    (leaves : ∀ turn ∈ turns, turn.LeavesBranches has) (state : σ) (name : String) :
    has (stateAfter host repository state turns) name ↔
      has state name ∨ Created repository (answersIn host repository state turns) name := by
  induction turns generalizing state with
  | nil => simp [stateAfter, answersIn, Created]
  | cons turn turns ih =>
    have onward : has (turn.outcome host repository state).state name ↔
        has state name ∨ Created repository (turn.answers host repository state) name := by
      rw [Turn.outcome, createPullRequests_state discreet reporting, has_after_iff keeps,
        leaves turn List.mem_cons_self]
      rfl
    rw [stateAfter, answersIn, ih fun other member => leaves other (List.mem_cons_of_mem _ member),
      onward, created_append, or_assoc]

private theorem granted_iff (keeps : KeepsBranches host repository has) {now : σ} {asked : List Call}
    {lead rest : List Response} {input : BranchInput} {answer : Except Failure Unit}
    (split : host.responses now asked =
      lead ++ ⟨.createBranch repository input, answer⟩ :: rest)
    (quiet : ∀ response ∈ lead, response.call.writes = false) :
    answer = .ok () ↔ ¬ has now input.branchName := by
  have uncreated : ¬ Created repository (host.responses now (lead.map Response.call))
      input.branchName := by
    rintro ⟨other, member, _⟩
    have called := List.mem_map_of_mem (f := Response.call) member
    rw [host.map_call_responses] at called
    obtain ⟨response, inside, same⟩ := List.mem_map.mp called
    have writes := quiet response inside
    rw [same] at writes
    cases writes
  have given : answer = (host.createBranch repository input
      (host.after now (lead.map Response.call))).result := host.answer_of_responses_eq split
  rw [given, keeps.granted, has_after_iff keeps]
  simp [uncreated]

private theorem Course.of_granted {options : UpdateOptions} {tasks : List UpgradeTask}
    {rest : List Response} {result : Except Failure (List PullRequest)}
    (course : Course repository options tasks rest result) (wet : options.dryRun = false)
    (applied : (Patch.applyAll tasks).applied ≠ [])
    (fine : ∀ response ∈ rest, response.Refused → response.call.makesBranch = true)
    (unopened : ∀ name, ⟨.pullRequestExists repository name, .ok true⟩ ∉ rest) :
    ∃ lead changes answer ending, (∀ response ∈ lead, response.call.writes = false) ∧
      rest = lead ++ ⟨.createBranch repository
        (wantedBranch repository options (Patch.applyAll tasks) changes), answer⟩ :: ending ∧
      ((answer = .ok () ∧ ∃ request, result = .ok [request]) ∨
        (answer ≠ .ok () ∧ ending = [] ∧ ∃ message, result = .error (.update
          ("failed to create branch " ++ Describe.branchName (Patch.applyAll tasks).applied ++ ": "
            ++ message)))) := by
  cases course with
  | idle reason =>
    rcases reason with rfl | dry | none
    · exact absurd rfl applied
    · rw [wet] at dry
      cases dry
    · exact absurd none applied
  | taken => exact absurd List.mem_cons_self (unopened _)
  | @published changes notes writes _ _ _ _ answer _ noting writing =>
    obtain ⟨quiet, _, _⟩ := noting.committed
    have quiet' : ∀ response ∈ (⟨.pullRequestExists repository
        (Describe.branchName (Patch.applyAll tasks).applied), answer⟩ : Response) :: notes,
        response.call.writes = false := by
      intro response member
      rcases List.mem_cons.mp member with rfl | member
      · rfl
      · exact quiet response member
    cases writing with
    | noBranch cause message told =>
      exact ⟨_, changes, .error cause, [], quiet', rfl, .inr ⟨nofun, rfl, message, rfl⟩⟩
    | noRequest cause message told =>
      have refused := fine ⟨.openPullRequest repository
        (wantedRequest repository options (Patch.applyAll tasks)), .error cause⟩ (by simp) ⟨cause, rfl⟩
      cases refused
    | opened request => exact ⟨_, changes, .ok (), _, quiet', rfl, .inl ⟨rfl, request, rfl⟩⟩

/-- An update after some turns, with something to publish, with no open pull request for its branch
and with every call granted but maybe that for its branch, comes to a pull request exactly when the
branch was not there at the start and was not created in a turn. Otherwise it fails at the branch and
asks for no pull request. -/
theorem createPullRequests_ok_iff_branch_new (host : Host σ) (discreet : host.Discreet)
    (reporting : host.Reporting) (keeps : KeepsBranches host repository has)
    (turns : List (Turn σ)) (last : Turn σ) (leaves : ∀ turn ∈ turns, turn.LeavesBranches has)
    (leaves' : last.LeavesBranches has) (start : σ) {tasks : List UpgradeTask}
    (planned : (plan host repository (last.outside
      (stateAfter host repository start turns))).result = .ok tasks)
    (wet : last.options.dryRun = false) (applied : (Patch.applyAll tasks).applied ≠ [])
    (fine : ∀ response ∈ last.answers host repository (stateAfter host repository start turns),
      response.Refused → response.call.makesBranch = true)
    (unopened : ∀ name, ⟨.pullRequestExists repository name, .ok true⟩ ∉
      last.answers host repository (stateAfter host repository start turns)) :
    let branch := Describe.branchName (Patch.applyAll tasks).applied
    let stands := has start branch ∨ Created repository (answersIn host repository start turns) branch
    let outcome := last.outcome host repository (stateAfter host repository start turns)
    ((∃ request, outcome.result = .ok [request]) ↔ ¬ stands) ∧
      (stands → (∃ message, outcome.result =
          .error (.update ("failed to create branch " ++ branch ++ ": " ++ message))) ∧
        ∀ call ∈ calls outcome.events, call.opensRequest = false) := by
  intro branch stands outcome
  have stands_iff : has (last.outside (stateAfter host repository start turns)) branch ↔ stands := by
    rw [leaves', has_stateAfter_iff discreet reporting keeps turns leaves]
  obtain ⟨reads, rest, split, reading, course⟩ : ∃ reads rest,
      last.answers host repository (stateAfter host repository start turns) = reads ++ rest ∧
      (∀ response ∈ reads, response.call.reads = true) ∧
      Course repository last.options tasks rest outcome.result :=
    createPullRequests_course discreet reporting planned
  rw [split] at fine unopened
  obtain ⟨lead, changes, answer, ending, quiet, rfl, came⟩ := course.of_granted wet applied
    (fun response member => fine response (List.mem_append_right _ member))
    (fun name member => unopened name (List.mem_append_right _ member))
  have quiet' : ∀ response ∈ reads ++ lead, response.call.writes = false := by
    intro response member
    rcases List.mem_append.mp member with member | member
    · exact Call.writes_of_reads (reading response member)
    · exact quiet response member
  rw [← List.append_assoc] at split
  have granted : answer = .ok () ↔ ¬ stands := by
    rw [← stands_iff]
    exact granted_iff keeps split quiet'
  rcases came with ⟨given, request, came⟩ | ⟨refused, rfl, message, came⟩
  · have free := granted.mp given
    exact ⟨⟨fun _ => free, fun _ => ⟨request, came⟩⟩, fun there => absurd there free⟩
  · have there : stands := not_not.mp (mt granted.mpr refused)
    refine ⟨⟨fun ⟨request, returned⟩ => ?_, fun free => absurd there free⟩,
      fun _ => ⟨⟨message, came⟩, fun call member => ?_⟩⟩
    · cases came.symm.trans returned
    · -- What was asked is what was answered, and there the branch comes last.
      have asked := host.map_call_responses (last.outside (stateAfter host repository start turns))
        (calls outcome.events)
      change (last.answers host repository _).map _ = _ at asked
      rw [← asked, split] at member
      obtain ⟨response, inside, rfl⟩ := List.mem_map.mp member
      rcases List.mem_append.mp inside with inside | inside
      · exact (Bool.or_eq_false_iff.mp (quiet' response inside)).2
      · obtain rfl := List.mem_singleton.mp inside
        rfl

/-- The branches of a host that refuses the first pull request, and how many it was asked for. -/
private structure Ledger where
  branches : List (Repository × String)
  asked : Nat

private def ledgerBranch (repository : Repository) (input : BranchInput) : Act Ledger Unit :=
  fun ledger =>
    if (repository, input.branchName) ∈ ledger.branches then
      ⟨.error (.host "branch exists"), [], ledger⟩
    else
      ⟨.ok (), [],
        { ledger with branches := (repository, input.branchName) :: ledger.branches }⟩

private def ledgerRequest (input : PullRequestInput) : Act Ledger PullRequest := fun ledger =>
  ⟨if ledger.asked = 0 then .error (.host "pr failed")
    else .ok { id := .int 1, title := .text input.title, url := .text "u", status := .text "open" },
    [], { ledger with asked := ledger.asked + 1 }⟩

private def ledgerHost : Host Ledger :=
  oneFileHost pinnedText ledgerBranch ledgerRequest

private theorem ledgerHost_orderly : ledgerHost.Orderly := by
  refine oneFileHost_orderly pinnedText_legible ⟨fun _ input state => ?_, fun _ _ => rfl⟩
    ⟨fun _ input state cause refused => ?_, fun input state cause refused => ?_⟩
  · unfold ledgerBranch
    split <;> rfl
  · unfold ledgerBranch at refused
    split at refused <;> cases refused
    exact ⟨_, rfl⟩
  · unfold ledgerRequest at refused
    split at refused <;> cases refused
    exact ⟨_, rfl⟩

private theorem ledgerHost_listsModules : ledgerHost.ListsModules :=
  oneFileHost_listsModules pinnedText_modulesListed

private def Ledger.Holds (ledger : Ledger) (name : String) : Prop :=
  (oneFileProject, name) ∈ ledger.branches

private theorem ledgerHost_keeps : KeepsBranches ledgerHost oneFileProject Ledger.Holds where
  granted := by
    intro input ledger
    show (ledgerBranch oneFileProject input ledger).result = .ok () ↔ _
    unfold ledgerBranch Ledger.Holds
    split <;> simp_all
  kept := by
    intro call ledger name
    cases call with
    | createBranch other input =>
      show (ledgerBranch other input ledger).state.Holds name ↔ _
      unfold ledgerBranch Ledger.Holds
      split
      · rename_i there
        constructor
        · exact .inl
        · rintro (before | ⟨_, same, rfl⟩)
          · exact before
          · obtain ⟨rfl, rfl⟩ := Call.createBranch.inj same
            exact there
      · simp only [List.mem_cons, Prod.mk.injEq, Call.createBranch.injEq]
        constructor
        · rintro (⟨rfl, rfl⟩ | before)
          · exact .inr ⟨input, ⟨rfl, rfl⟩, rfl⟩
          · exact .inl before
        · rintro (before | ⟨_, ⟨rfl, rfl⟩, rfl⟩)
          · exact .inr before
          · exact .inl ⟨rfl, rfl⟩
    | _ => exact ⟨.inl, fun came => came.resolve_right nofun⟩

private def plainTurn : Turn Ledger := ⟨id, {}⟩

private def left : Ledger :=
  stateAfter ledgerHost oneFileProject ⟨[], 0⟩ [plainTurn]

private def pinnedUpgrade : UpgradeTask where
  dependency := ⟨"a", "git::net", "v1", "a.tf", 1, .module⟩
  newVersion := "v2"
  content := pinnedText

private theorem left_plan : (plan ledgerHost oneFileProject left).result = .ok [pinnedUpgrade] := by
  decide +kernel

private theorem pinnedUpgrade_applied : (Patch.applyAll [pinnedUpgrade]).applied ≠ [] := by
  decide +kernel

private theorem left_fine : ∀ response ∈ plainTurn.answers ledgerHost oneFileProject left,
    response.Refused → response.call.makesBranch = true := by
  decide +kernel

private def tellsOpen : Response → Bool
  | ⟨.pullRequestExists _ _, .ok found⟩ => found
  | _ => false

private theorem left_unopened (name : String) :
    ⟨.pullRequestExists oneFileProject name, .ok true⟩ ∉
      plainTurn.answers ledgerHost oneFileProject left := by
  have answered : ∀ response ∈ plainTurn.answers ledgerHost oneFileProject left,
      tellsOpen response = false := by
    decide +kernel
  exact fun member => absurd (answered _ member : true = false) Bool.noConfusion

theorem createPullRequests_ok_iff_branch_new_sample :
    let outcome := plainTurn.outcome ledgerHost oneFileProject left
    let branch := Describe.branchName (Patch.applyAll [pinnedUpgrade]).applied
    let stands := Ledger.Holds ⟨[], 0⟩ branch ∨
      Created oneFileProject (answersIn ledgerHost oneFileProject ⟨[], 0⟩ [plainTurn]) branch
    ((∃ request, outcome.result = .ok [request]) ↔ ¬ stands) ∧
      (stands → (∃ message, outcome.result =
          .error (.update ("failed to create branch " ++ branch ++ ": " ++ message))) ∧
        ∀ call ∈ calls outcome.events, call.opensRequest = false) :=
  createPullRequests_ok_iff_branch_new ledgerHost ledgerHost_orderly.discreet
    ledgerHost_orderly.reporting ledgerHost_keeps [plainTurn] plainTurn
    (fun _ _ _ _ => by simp_all [plainTurn]) (fun _ _ => .rfl)
    ⟨[], 0⟩ left_plan rfl pinnedUpgrade_applied left_fine left_unopened

/-- An update does not always come to a pull request after an earlier one: when the earlier one left
its branch behind without a pull request, the branch is refused. -/
theorem not_createPullRequests_ok_after_turns :
    ¬ ∀ (host : Host Ledger) (has : Ledger → String → Prop) (repository : Repository)
      (turns : List (Turn Ledger)) (last : Turn Ledger) (start : Ledger) (tasks : List UpgradeTask),
      host.Orderly → host.ListsModules → KeepsBranches host repository has →
        (∀ turn ∈ turns, turn.LeavesBranches has) → last.LeavesBranches has →
        (plan host repository (last.outside (stateAfter host repository start turns))).result =
          .ok tasks →
        last.options.dryRun = false → (Patch.applyAll tasks).applied ≠ [] →
        (∀ response ∈ last.answers host repository (stateAfter host repository start turns),
          response.Refused → response.call.makesBranch = true) →
        (∀ name, ⟨.pullRequestExists repository name, .ok true⟩ ∉
          last.answers host repository (stateAfter host repository start turns)) →
        ∃ request, (last.outcome host repository
          (stateAfter host repository start turns)).result = .ok [request] := by
  intro claimed
  obtain ⟨request, returned⟩ := claimed ledgerHost Ledger.Holds oneFileProject [plainTurn] plainTurn
    ⟨[], 0⟩ _ ledgerHost_orderly ledgerHost_listsModules ledgerHost_keeps
    (fun _ _ _ _ => by simp_all [plainTurn]) (fun _ _ => .rfl) left_plan rfl
    pinnedUpgrade_applied left_fine left_unopened
  have refused : (plainTurn.outcome ledgerHost oneFileProject left).result = .error (.update
      "failed to create branch chore/upgrade-net-v2: branch exists") := by
    decide +kernel
  cases refused.symm.trans returned

end InfraPins.Update
