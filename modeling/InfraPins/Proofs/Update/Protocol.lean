import InfraPins.Proofs.Update.Course

/-! The write protocol of an update. An update writes by one branch and one pull request, in this
order, and only when nothing speaks against it; both carry the tasks that were applied. What it comes
to can be read off the answers to these two calls. -/

namespace InfraPins

def Call.makesBranch : Call → Bool
  | .createBranch _ _ => true
  | _ => false

def Call.opensRequest : Call → Bool
  | .openPullRequest _ _ => true
  | _ => false

def Call.writes (call : Call) : Bool :=
  call.makesBranch || call.opensRequest

theorem Call.writes_of_reads {call : Call} (reads : call.reads = true) : call.writes = false := by
  cases call <;> first | rfl | cases reads

namespace Update

variable {σ : Type} {host : Host σ} {repository : Repository} {options : UpdateOptions}
  {tasks : List UpgradeTask} {lead writes : List Response}
  {result : Except Failure (List PullRequest)}

/-- What an update commits: the changes of its batch, and maybe the batch's entries in a changelog
that it was given. -/
def Committed (repository : Repository) (batch : Patch.Batch) (responses : List Response)
    (changes : List FileChange) : Prop :=
  changes = batch.changes ∨
    ∃ content, ⟨.fetchFile repository Changelog.path, .ok content⟩ ∈ responses ∧
      changes = batch.changes ++ [{ path := Changelog.path, content := noted batch content }]

/-- What an update may ask of a host, and what it then comes to. -/
structure Protocol (repository : Repository) (options : UpdateOptions) (tasks : List UpgradeTask)
    (responses : List Response) (result : Except Failure (List PullRequest)) : Prop where
  branchOnce : responses.countP (·.call.makesBranch) ≤ 1
  requestOnce : responses.countP (·.call.opensRequest) ≤ 1
  branchFirst : ∀ before request after, responses = before ++ request :: after →
    request.call.opensRequest = true → ∃ input, ⟨.createBranch repository input, .ok ()⟩ ∈ before
  idle : (tasks = [] ∨ options.dryRun = true ∨ (Patch.applyAll tasks).applied = [] ∨
      ∃ other name, ⟨.pullRequestExists other name, .ok true⟩ ∈ responses) →
    ∀ response ∈ responses, response.call.writes = false
  look : ∀ other name answer, ⟨.pullRequestExists other name, answer⟩ ∈ responses →
    other = repository ∧ name = Describe.branchName (Patch.applyAll tasks).applied
  branch : ∀ other input answer, ⟨.createBranch other input, answer⟩ ∈ responses →
    other = repository ∧ ∃ changes, Committed repository (Patch.applyAll tasks) responses changes ∧
      input = wantedBranch repository options (Patch.applyAll tasks) changes
  request : ∀ other input answer, ⟨.openPullRequest other input, answer⟩ ∈ responses →
    other = repository ∧ input = wantedRequest repository options (Patch.applyAll tasks)
  returned : ∀ request, result = .ok [request] ↔
    (∃ input, ⟨.createBranch repository input, .ok ()⟩ ∈ responses) ∧
      ∃ input, ⟨.openPullRequest repository input, .ok request⟩ ∈ responses
  raised : (∃ message, result = .error (.update message)) ↔
    ∃ response ∈ responses, response.call.writes = true ∧ response.Refused
  settled : result = .ok [] ∨ (∃ request, result = .ok [request]) ∨
    ∃ message, result = .error (.update message)

private theorem absent_of_quiet {response : Response}
    (quiet : ∀ response ∈ lead, response.call.writes = false)
    (writing : response.call.writes = true) : response ∉ lead := by
  intro member
  rw [quiet response member] at writing
  cases writing

private theorem countP_of_quiet (quiet : ∀ response ∈ lead, response.call.writes = false)
    {kind : Call → Bool} (writing : ∀ call, kind call = true → call.writes = true) :
    lead.countP (kind ·.call) = 0 := by
  rw [List.countP_eq_zero]
  intro response member holds
  exact absent_of_quiet quiet (writing _ holds) member

private theorem writes_of_makesBranch (call : Call) (makes : call.makesBranch = true) :
    call.writes = true := by
  simp [Call.writes, makes]

private theorem writes_of_opensRequest (call : Call) (opens : call.opensRequest = true) :
    call.writes = true := by
  simp [Call.writes, opens]

private theorem Protocol.of_quiet (quiet : ∀ response ∈ lead, response.call.writes = false)
    (look : ∀ other name answer, ⟨.pullRequestExists other name, answer⟩ ∈ lead →
      other = repository ∧ name = Describe.branchName (Patch.applyAll tasks).applied) :
    Protocol repository options tasks lead (.ok []) where
  branchOnce := by simp [countP_of_quiet quiet writes_of_makesBranch]
  requestOnce := by simp [countP_of_quiet quiet writes_of_opensRequest]
  branchFirst := by
    rintro before request after rfl opens
    exact absurd (List.mem_append_right _ List.mem_cons_self)
      (absent_of_quiet quiet (writes_of_opensRequest _ opens))
  idle := fun _ => quiet
  look := look
  branch := fun _ _ _ member => absurd member (absent_of_quiet quiet rfl)
  request := fun _ _ _ member => absurd member (absent_of_quiet quiet rfl)
  returned := fun request =>
    ⟨nofun, fun ⟨⟨_, member⟩, _⟩ => absurd member (absent_of_quiet quiet rfl)⟩
  raised := ⟨nofun, fun ⟨_, member, writing, _⟩ => absurd member (absent_of_quiet quiet writing)⟩
  settled := .inl rfl

private theorem branch_before_request {batch : Patch.Batch} {changes : List FileChange}
    {before after : List Response} {request : Response}
    (writing : Writing repository options batch changes writes result)
    (split : writes = before ++ request :: after) (opens : request.call.opensRequest = true) :
    ∃ input, ⟨.createBranch repository input, .ok ()⟩ ∈ lead ++ before := by
  cases before with
  | nil =>
    -- What is written first is the branch.
    cases writing <;> obtain ⟨rfl, _⟩ := List.cons.inj split <;> cases opens
  | cons first before =>
    cases writing with
    | noBranch cause message told => simp at split
    | noRequest cause message told | opened request =>
      obtain ⟨rfl, _⟩ := List.cons.inj split
      exact ⟨_, List.mem_append_right _ List.mem_cons_self⟩

private theorem Protocol.of_writing {changes : List FileChange}
    (quiet : ∀ response ∈ lead, response.call.writes = false)
    (look : ∀ other name answer, ⟨.pullRequestExists other name, answer⟩ ∈ lead →
      (other = repository ∧ name = Describe.branchName (Patch.applyAll tasks).applied) ∧
        answer ≠ .ok true)
    (planned : tasks ≠ []) (wet : options.dryRun = false)
    (applied : (Patch.applyAll tasks).applied ≠ [])
    (committed : Committed repository (Patch.applyAll tasks) lead changes)
    (writing : Writing repository options (Patch.applyAll tasks) changes writes result) :
    Protocol repository options tasks (lead ++ writes) result := by
  have written {response : Response} (writing : response.call.writes = true) :
      response ∈ lead ++ writes ↔ response ∈ writes := by
    simp [absent_of_quiet quiet writing]
  have looked {other : Repository} {name : String} {answer : Except Failure Bool}
      (member : ⟨.pullRequestExists other name, answer⟩ ∈ lead ++ writes) :
      ⟨.pullRequestExists other name, answer⟩ ∈ lead := by
    rcases List.mem_append.mp member with member | member
    · exact member
    · cases writing <;> simp at member
  have committed' : Committed repository (Patch.applyAll tasks) (lead ++ writes) changes :=
    committed.imp_right fun ⟨content, member, same⟩ =>
      ⟨content, List.mem_append_left _ member, same⟩
  constructor
  case branchOnce =>
    rw [List.countP_append, countP_of_quiet quiet writes_of_makesBranch]
    cases writing <;> simp [Call.makesBranch]
  case requestOnce =>
    rw [List.countP_append, countP_of_quiet quiet writes_of_opensRequest]
    cases writing <;> simp [Call.opensRequest]
  case branchFirst =>
    intro before request after split opens
    have fresh : request ∉ lead := absent_of_quiet quiet (writes_of_opensRequest _ opens)
    rcases append_split split with ⟨rest, within⟩ | ⟨written, rfl, ends⟩
    · exact absurd (by simp [within]) fresh
    · exact branch_before_request writing ends opens
  case idle =>
    rintro (none | dry | none | ⟨other, name, member⟩)
    · exact absurd none planned
    · rw [wet] at dry
      cases dry
    · exact absurd none applied
    · exact absurd rfl (look _ _ _ (looked member)).2
  case look => exact fun _ _ _ member => (look _ _ _ (looked member)).1
  case branch =>
    intro other input answer member
    rw [written rfl] at member
    have shape : other = repository ∧
        input = wantedBranch repository options (Patch.applyAll tasks) changes := by
      cases writing <;> simp_all
    exact ⟨shape.1, changes, committed', shape.2⟩
  case request =>
    intro other input answer member
    rw [written rfl] at member
    cases writing <;> simp_all
  case returned =>
    intro request
    have branches (input : BranchInput) := @written ⟨.createBranch repository input, .ok ()⟩ rfl
    have requests (input : PullRequestInput) :=
      @written ⟨.openPullRequest repository input, .ok request⟩ rfl
    simp only [branches, requests]
    cases writing <;> simp [eq_comm]
  case raised =>
    have refusals : (∃ response ∈ lead ++ writes, response.call.writes = true ∧ response.Refused) ↔
        ∃ response ∈ writes, response.call.writes = true ∧ response.Refused :=
      exists_congr fun response =>
        and_congr_left fun ⟨writing, _⟩ => written writing
    rw [refusals]
    cases writing <;> simp [Response.Refused, Call.writes, Call.makesBranch, Call.opensRequest]
  case settled => cases writing <;> simp

/-- What is asked about the changelog writes nothing and is about nothing else, and what is committed
comes from the answers. -/
theorem Noting.committed {batch : Patch.Batch} {notes : List Response}
    {changes : List FileChange} (noting : Noting repository batch notes changes) :
    (∀ response ∈ notes, response.call.writes = false) ∧
      (∀ other name answer, ⟨.pullRequestExists other name, answer⟩ ∉ notes) ∧
      Committed repository batch notes changes := by
  cases noting with
  | unkept _ _ | unread _ | unchanged _ _ => 
    exact ⟨by simp [Call.writes, Call.makesBranch, Call.opensRequest], by simp, .inl rfl⟩
  | changed content =>
    exact ⟨by simp [Call.writes, Call.makesBranch, Call.opensRequest], by simp,
      .inr ⟨content, by simp, rfl⟩⟩

private theorem Course.protocol {reads rest : List Response}
    (reading : ∀ response ∈ reads, response.call.reads = true)
    (course : Course repository options tasks rest result) :
    Protocol repository options tasks (reads ++ rest) result := by
  have quiet : ∀ response ∈ reads, response.call.writes = false :=
    fun response member => Call.writes_of_reads (reading response member)
  have unlooked {other : Repository} {name : String} {answer : Except Failure Bool} :
      ⟨.pullRequestExists other name, answer⟩ ∉ reads := fun member => by
    cases reading _ member
  cases course with
  | idle reason =>
    rw [List.append_nil]
    exact .of_quiet quiet fun _ _ _ member => absurd member unlooked
  | taken planned wet applied =>
    refine .of_quiet ?_ fun other name answer member => ?_
    · simpa [or_imp, forall_and, Call.writes, Call.makesBranch, Call.opensRequest] using quiet
    · simp_all
  | @published changes notes writes _ planned wet applied answer absent noting writing =>
    obtain ⟨quiet', unlooked', committed⟩ := noting.committed
    generalize look : (⟨.pullRequestExists repository _, answer⟩ : Response) = looking
    rw [List.append_cons, ← List.append_assoc]
    refine .of_writing ?_ ?_ planned wet applied ?_ writing <;> subst look
    · intro response member
      simp only [List.append_assoc, List.singleton_append, List.mem_append, List.mem_cons] at member
      rcases member with member | rfl | member
      · exact quiet response member
      · rfl
      · exact quiet' response member
    · intro other name answer' member
      simp_all
    · exact committed.imp_right fun ⟨content, member, same⟩ =>
        ⟨content, List.mem_append_right _ member, same⟩

/-- An update keeps the write protocol, whatever it is asked to do and whatever a host answers that
fails only by report and whose files list their modules. -/
theorem createPullRequests_protocol (host : Host σ) (orderly : host.Orderly)
    (listing : host.ListsModules) (repository : Repository) (options : UpdateOptions) (state : σ) :
    ∃ tasks, (plan host repository state).result = .ok tasks ∧
      Protocol repository options tasks
        (host.responses state (calls (createPullRequests host repository options state).events))
        (createPullRequests host repository options state).result := by
  obtain ⟨_, tasks, planned, _⟩ := (plan_gathers orderly listing).post state
  obtain ⟨reads, rest, split, reading, course⟩ :=
    createPullRequests_course orderly.discreet orderly.reporting planned
  refine ⟨tasks, planned, ?_⟩
  rw [split]
  exact course.protocol reading

def oneFileProject : Repository where
  name := .text "i"
  organization := "o"
  defaultBranch := .text "main"

/-- A host of that project and of a module whose newest version is `v2`. The file's text, and what
writing does, are given. -/
def oneFileHost (content : String) (create : Repository → BranchInput → Act σ Unit)
    (request : PullRequestInput → Act σ PullRequest) : Host σ where
  name := "memory"
  discover _ := pure [{ name := .text "net", organization := "o", defaultBranch := .text "main" }]
  listFiles _ suffix := pure
    (if suffix = ".tf" then [{ path := .text "a.tf", isDirectory := .bool false }] else [])
  fetchFile _ _ := pure content
  listTags _ := pure [.text "v2"]
  hasFile _ _ := pure false
  createBranch := create
  openPullRequest _ := request
  pullRequestExists _ _ := pure false
  close := pure ()

section OneFile

variable {content : String} {create : Repository → BranchInput → Act σ Unit}
  {request : PullRequestInput → Act σ PullRequest}

/-- Such a host is orderly if its text is legible and its writes are. -/
theorem oneFileHost_orderly (legible : Scan.Legible content)
    (discreet : (∀ repository input state, calls (create repository input state).events = []) ∧
      ∀ input state, calls (request input state).events = [])
    (reporting : (∀ repository input state cause, (create repository input state).result = .error cause →
        ∃ message, cause.hostMessage? = some message) ∧
      ∀ input state cause, (request input state).result = .error cause →
        ∃ message, cause.hostMessage? = some message) :
    (oneFileHost content create request).Orderly where
  discreet := by
    intro call state
    cases call with
    | createBranch repository input => exact discreet.1 repository input state
    | openPullRequest _ input => exact discreet.2 input state
    | _ => rfl
  reporting := by
    intro call state cause refused
    cases call with
    | createBranch repository input => exact reporting.1 repository input state cause refused
    | openPullRequest _ input => exact reporting.2 input state cause refused
    | _ => cases refused
  proper := by
    intro call state answer granted
    cases call with
    | listFiles _ suffix =>
      obtain rfl := Except.ok.inj granted
      intro entry member
      split at member
      · obtain rfl := List.mem_singleton.mp member
        exact ⟨_, rfl⟩
      · cases member
    | fetchFile _ _ =>
      obtain rfl := Except.ok.inj granted
      exact legible
    | listTags _ =>
      obtain rfl := Except.ok.inj granted
      intro tag member
      obtain rfl := List.mem_singleton.mp member
      exact ⟨"v2", rfl, by decide +kernel⟩
    | _ => trivial

/-- Such a host lists its modules if its text does. -/
theorem oneFileHost_listsModules (listed : Scan.ModulesListed content) :
    (oneFileHost content create request).ListsModules := by
  intro repository path state other fetched
  obtain rfl : content = other := Except.ok.inj fetched
  exact listed

end OneFile

def pinnedText : String := "module \"a\" \x7b source = \"git::net?ref=v1\" \x7d"

private theorem read_pinnedText :
    Hcl.read? pinnedText = some [(.text "module", .list [.object [(.text "\"a\"",
      .ofFields [("source", .text "\"git::net?ref=v1\""), ("__is_block__", .bool true)])]])] := by
  decide +kernel

theorem pinnedText_legible : Scan.Legible pinnedText where
  images := by
    have none : Scan.findAll Scan.imageHere? [] pinnedText.toList = [] := by decide +kernel
    exact fun found member => nomatch none ▸ member
  modules := by
    intro path found scanned dependency member
    have only : Scan.report pinnedText path .terraform =
        .ok ⟨none, [⟨"a", "git::net", "v1", path, 1, .module⟩]⟩ := by
      rw [Scan.report, Scan.modulesByDocument, read_pinnedText]
      rfl
    obtain rfl := Except.ok.inj (only.symm.trans scanned)
    obtain rfl := List.mem_singleton.mp member
    show Version.Legible "v1".toList
    decide +kernel

theorem pinnedText_modulesListed : Scan.ModulesListed pinnedText := by
  intro document value read found
  obtain rfl := Option.some.inj (read_pinnedText.symm.trans read)
  obtain rfl := Option.some.inj found
  exact ⟨_, rfl⟩

/-- Such a host on which writing never fails. -/
def agreeable (content : String) : Host Unit :=
  oneFileHost content (fun _ _ => pure ()) fun input => pure
    { id := .int 1, title := .text input.title, url := .text "u", status := .text "open" }

theorem agreeable_orderly {content : String} (legible : Scan.Legible content) :
    (agreeable content).Orderly :=
  oneFileHost_orderly legible ⟨fun _ _ _ => rfl, fun _ _ => rfl⟩ ⟨nofun, nofun⟩

theorem createPullRequests_protocol_sample :
    ∃ tasks, (plan (agreeable pinnedText) oneFileProject ()).result = .ok tasks ∧
      Protocol oneFileProject {} tasks
        ((agreeable pinnedText).responses ()
          (calls (createPullRequests (agreeable pinnedText) oneFileProject {} ()).events))
        (createPullRequests (agreeable pinnedText) oneFileProject {} ()).result :=
  createPullRequests_protocol (agreeable pinnedText) (agreeable_orderly pinnedText_legible)
    (oneFileHost_listsModules pinnedText_modulesListed) oneFileProject {} ()

/-- Where a document has a plain value in place of its modules, an update comes to a failure that is
none of its own. -/
theorem not_createPullRequests_protocol :
    ¬ ∀ (host : Host Unit) (_ : host.Orderly) repository options,
      ∃ tasks, Protocol repository options tasks
        (host.responses () (calls (createPullRequests host repository options ()).events))
        (createPullRequests host repository options ()).result := by
  intro claimed
  have legible : Scan.Legible "module = 1\n" := by
    constructor
    · have none : Scan.findAll Scan.imageHere? [] "module = 1\n".toList = [] := by decide +kernel
      exact fun found member => nomatch none ▸ member
    · intro path found scanned
      have read : Hcl.read? "module = 1\n" = some [(.text "module", .int 1)] := by decide +kernel
      have misused : Scan.report "module = 1\n" path .terraform = .error (.misuse .unsupported) := by
        rw [Scan.report, Scan.modulesByDocument, read]
        rfl
      cases misused.symm.trans scanned
  obtain ⟨tasks, protocol⟩ := claimed _ (agreeable_orderly legible) oneFileProject {}
  have fails : (createPullRequests (agreeable "module = 1\n") oneFileProject {} ()).result =
      .error (.misuse .unsupported) := by
    decide +kernel
  simpa [fails] using protocol.settled

end Update

end InfraPins
