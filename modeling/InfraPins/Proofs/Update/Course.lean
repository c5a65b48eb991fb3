import InfraPins.Proofs.Update.Reading

/-! The course of an update. After its plan an update looks for an open pull request, reads the
changelog, creates a branch and opens a pull request, and it stops at the first of these that ends
it. The course lists what it asked with the answers, and says what it came to. -/

namespace InfraPins.Update

open Act

variable {σ : Type} {host : Host σ} {repository : Repository} {options : UpdateOptions}

def wantedBranch (repository : Repository) (options : UpdateOptions) (batch : Patch.Batch)
    (changes : List FileChange) : BranchInput where
  branchName := Describe.branchName batch.applied
  baseBranch := targetBranch repository options
  changes
  commitMessage := Describe.commitMessage batch.applied

def wantedRequest (repository : Repository) (options : UpdateOptions) (batch : Patch.Batch) :
    PullRequestInput where
  sourceBranch := Describe.branchName batch.applied
  targetBranch := targetBranch repository options
  title := Describe.pullRequestTitle batch.applied
  description := Describe.pullRequestDescription batch.applied
  autoComplete := options.autoComplete

/-- A changelog with the entries of a batch. -/
def noted (batch : Patch.Batch) (content : String) : String :=
  String.ofList (Changelog.insertEntries content.toList
    ((Describe.changelogEntries batch.applied).map String.toList))

/-- What an update asks about the changelog, with the changes that it commits in the end. -/
inductive Noting (repository : Repository) (batch : Patch.Batch) :
    List Response → List FileChange → Prop where
  | unkept (answer : Except Failure Bool) (absent : answer ≠ .ok true) :
      Noting repository batch [⟨.hasFile repository Changelog.path, answer⟩] batch.changes
  | unread (cause : Failure) :
      Noting repository batch [⟨.hasFile repository Changelog.path, .ok true⟩,
        ⟨.fetchFile repository Changelog.path, .error cause⟩] batch.changes
  | unchanged (content : String) (same : noted batch content = content) :
      Noting repository batch [⟨.hasFile repository Changelog.path, .ok true⟩,
        ⟨.fetchFile repository Changelog.path, .ok content⟩] batch.changes
  | changed (content : String) :
      Noting repository batch [⟨.hasFile repository Changelog.path, .ok true⟩,
        ⟨.fetchFile repository Changelog.path, .ok content⟩]
        (batch.changes ++ [{ path := Changelog.path, content := noted batch content }])

inductive Writing (repository : Repository) (options : UpdateOptions) (batch : Patch.Batch)
    (changes : List FileChange) : List Response → Except Failure (List PullRequest) → Prop where
  | noBranch (cause : Failure) (message : String) (told : cause.hostMessage? = some message) :
      Writing repository options batch changes
        [⟨.createBranch repository (wantedBranch repository options batch changes), .error cause⟩]
        (.error (.update ("failed to create branch " ++ Describe.branchName batch.applied ++ ": "
          ++ message)))
  | noRequest (cause : Failure) (message : String) (told : cause.hostMessage? = some message) :
      Writing repository options batch changes
        [⟨.createBranch repository (wantedBranch repository options batch changes), .ok ()⟩,
          ⟨.openPullRequest repository (wantedRequest repository options batch), .error cause⟩]
        (.error (.update ("failed to create PR: " ++ message)))
  | opened (request : PullRequest) :
      Writing repository options batch changes
        [⟨.createBranch repository (wantedBranch repository options batch changes), .ok ()⟩,
          ⟨.openPullRequest repository (wantedRequest repository options batch), .ok request⟩]
        (.ok [request])

/-- What an update asks after its plan, and what it comes to. -/
inductive Course (repository : Repository) (options : UpdateOptions) (tasks : List UpgradeTask) :
    List Response → Except Failure (List PullRequest) → Prop where
  | idle (reason : tasks = [] ∨ options.dryRun = true ∨ (Patch.applyAll tasks).applied = []) :
      Course repository options tasks [] (.ok [])
  | taken (planned : tasks ≠ []) (wet : options.dryRun = false)
      (applied : (Patch.applyAll tasks).applied ≠ []) :
      Course repository options tasks [⟨.pullRequestExists repository
        (Describe.branchName (Patch.applyAll tasks).applied), .ok true⟩] (.ok [])
  | published {changes : List FileChange} {notes writes : List Response}
      {result : Except Failure (List PullRequest)} (planned : tasks ≠ [])
      (wet : options.dryRun = false) (applied : (Patch.applyAll tasks).applied ≠ [])
      (answer : Except Failure Bool) (absent : answer ≠ .ok true)
      (noting : Noting repository (Patch.applyAll tasks) notes changes)
      (writing : Writing repository options (Patch.applyAll tasks) changes writes result) :
      Course repository options tasks (⟨.pullRequestExists repository
        (Describe.branchName (Patch.applyAll tasks).applied), answer⟩ :: (notes ++ writes)) result

private theorem look_converses (discreet : host.Discreet) (reporting : host.Reporting) {branch : String} :
    Converses host (pullRequestOpen host repository branch) fun responses result =>
      ∃ answer, responses = [⟨.pullRequestExists repository branch, answer⟩] ∧
        ∃ found, result = .ok found ∧ (found = true ↔ answer = .ok true) := by
  unfold pullRequestOpen
  refine (Converses.attemptAsk discreet reporting
    (.pullRequestExists repository branch)).bind (fun responses answer came => ?_) ?_
  · rcases came with ⟨found, _, _, rfl, same⟩ | ⟨cause, message, _, rfl, same⟩
    · obtain rfl := Except.ok.inj same
      refine Converses.pure.weaken fun more result ⟨silent, came⟩ => ?_
      exact ⟨.ok found, by simp [silent], found, came, by simp⟩
    · obtain rfl := Except.ok.inj same
      refine Converses.log.bind (fun responses _ ⟨silent, _⟩ => ?_) (fun _ _ ⟨_, same⟩ => nomatch same)
      refine Converses.pure.weaken fun more result ⟨silent', came⟩ => ?_
      exact ⟨.error cause, by simp [silent, silent'], false, came, by simp⟩
  · rintro responses cause (⟨_, _, _, _, same⟩ | ⟨_, _, _, _, same⟩) <;> cases same

/-- What asking about the changelog comes to, before a refusal becomes a message. -/
private inductive Glance (repository : Repository) :
    List Response → Except Failure (Option String) → Prop where
  | absent : Glance repository [⟨.hasFile repository Changelog.path, .ok false⟩] (.ok none)
  | unknown (cause : Failure) (message : String) (told : cause.hostMessage? = some message) :
      Glance repository [⟨.hasFile repository Changelog.path, .error cause⟩] (.error cause)
  | unread (cause : Failure) (message : String) (told : cause.hostMessage? = some message) :
      Glance repository [⟨.hasFile repository Changelog.path, .ok true⟩,
        ⟨.fetchFile repository Changelog.path, .error cause⟩] (.error cause)
  | read (content : String) :
      Glance repository [⟨.hasFile repository Changelog.path, .ok true⟩,
        ⟨.fetchFile repository Changelog.path, .ok content⟩] (.ok (some content))

private theorem glance_converses (discreet : host.Discreet) (reporting : host.Reporting) :
    Converses host (do
      if (← host.askHasFile repository Changelog.path) then
        return some (← host.askContent repository Changelog.path)
      else return none) (Glance repository) := by
  refine (Converses.ask discreet reporting
    (.hasFile repository Changelog.path)).bind (fun responses kept came => ?_) ?_
  · rcases came with ⟨_, _, _, rfl, same⟩ | ⟨_, _, _, _, same⟩
    · obtain rfl := Except.ok.inj same
      cases kept with
      | false => exact Converses.pure.weaken fun _ _ ⟨silent, came⟩ => by subst silent came; exact .absent
      | true =>
        refine (Converses.ask discreet reporting
          (.fetchFile repository Changelog.path)).bind (fun responses content came => ?_) ?_
        · rcases came with ⟨_, _, _, rfl, same⟩ | ⟨_, _, _, _, same⟩
          · obtain rfl := Except.ok.inj same
            exact Converses.pure.weaken fun _ _ ⟨silent, came⟩ => by
              subst silent came
              exact .read content
          · cases same
        · rintro responses cause (⟨_, _, _, _, same⟩ | ⟨_, message, told, rfl, same⟩)
          · cases same
          · obtain rfl := Except.error.inj same
            exact .unread cause message told
    · cases same
  · rintro responses cause (⟨_, _, _, _, same⟩ | ⟨_, message, told, rfl, same⟩)
    · cases same
    · obtain rfl := Except.error.inj same
      exact .unknown cause message told

private theorem withChangelog_converses (discreet : host.Discreet) (reporting : host.Reporting)
    (batch : Patch.Batch) :
    Converses host (withChangelog host repository batch.applied batch.changes)
      fun responses result => ∃ changes, result = .ok changes ∧
        Noting repository batch responses changes := by
  refine ((glance_converses discreet reporting).attempt Failure.hostMessage?).bind
    (fun responses read came => ?_) ?_
  · rcases came with ⟨content?, same, glance⟩ | ⟨cause, message, told, same, glance⟩ |
      ⟨cause, _, same, _⟩
    · obtain rfl := Except.ok.inj same
      cases glance with
      | absent =>
        refine Converses.pure.weaken fun _ _ ⟨silent, came⟩ => ⟨batch.changes, came, ?_⟩
        simp only [silent, List.append_nil]
        exact .unkept _ nofun
      | read content =>
        dsimp only
        split
        · rename_i same
          refine Converses.pure.weaken fun _ _ ⟨silent, came⟩ => ⟨batch.changes, came, ?_⟩
          simp only [silent, List.append_nil]
          exact .unchanged content same
        · refine Converses.pure.weaken fun _ _ ⟨silent, came⟩ => ⟨_, came, ?_⟩
          simp only [silent, List.append_nil]
          exact .changed content
    · obtain rfl := Except.ok.inj same
      refine Converses.log.bind (fun _ _ ⟨silent, _⟩ => ?_) (fun _ _ ⟨_, same⟩ => nomatch same)
      refine Converses.pure.weaken fun _ _ ⟨silent', came⟩ => ⟨batch.changes, came, ?_⟩
      simp only [silent, silent', List.append_nil]
      cases glance with
      | unknown _ _ _ => exact .unkept _ nofun
      | unread _ _ _ => exact .unread cause
    · cases same
  · -- Whatever the host refuses here it reports, so that the attempt does not fail.
    rintro responses cause (⟨_, same, _⟩ | ⟨_, _, _, same, _⟩ | ⟨other, untold, same, glance⟩)
    · cases same
    · cases same
    · cases glance <;> simp_all

private theorem publishing_converses (discreet : host.Discreet) (reporting : host.Reporting)
    (opening : String) (call : Call) :
    Converses host (publishing opening (host.ask call)) fun responses result =>
      (∃ value, responses = [⟨call, .ok value⟩] ∧ result = .ok value) ∨
      ∃ cause message, cause.hostMessage? = some message ∧ responses = [⟨call, .error cause⟩] ∧
        result = .error (.update (opening ++ message)) := by
  refine (Converses.attemptAsk discreet reporting call).bind
    (fun responses answer came => ?_) ?_
  · rcases came with ⟨value, _, _, same, equal⟩ | ⟨cause, message, told, same, equal⟩
    · obtain rfl := Except.ok.inj equal
      exact Converses.pure.weaken fun _ _ ⟨silent, came⟩ =>
        .inl ⟨value, by simp [same, silent], came⟩
    · obtain rfl := Except.ok.inj equal
      exact Converses.fail.weaken fun _ _ ⟨silent, came⟩ =>
        .inr ⟨cause, message, told, by simp [same, silent], came⟩
  · rintro responses cause (⟨_, _, _, _, same⟩ | ⟨_, _, _, _, same⟩) <;> cases same

private theorem publish_converses (discreet : host.Discreet) (reporting : host.Reporting)
    {tasks : List UpgradeTask} (planned : tasks ≠ []) (wet : options.dryRun = false)
    (applied : (Patch.applyAll tasks).applied ≠ []) :
    Converses host (publish host repository options (Patch.applyAll tasks).applied
      (Patch.applyAll tasks).changes) (Course repository options tasks) := by
  unfold publish
  dsimp only
  refine (look_converses discreet reporting).bind (fun responses found came => ?_)
    (fun _ _ ⟨_, _, _, same, _⟩ => nomatch same)
  obtain ⟨answer, rfl, other, same, exactly⟩ := came
  obtain rfl := Except.ok.inj same
  cases found with
  | true =>
    obtain rfl := exactly.mp rfl
    refine Converses.log.bind (fun _ _ ⟨silent, _⟩ => ?_) (fun _ _ ⟨_, same⟩ => nomatch same)
    refine Converses.pure.weaken fun _ _ ⟨silent', came⟩ => ?_
    subst silent silent' came
    exact .taken planned wet applied
  | false =>
    have absent : answer ≠ .ok true := fun same => nomatch exactly.mpr same
    simp only [Bool.false_eq_true, if_false]
    refine (withChangelog_converses discreet reporting _).bind (fun notes changes came => ?_)
      (fun _ _ ⟨_, same, _⟩ => nomatch same)
    obtain ⟨_, same, noting⟩ := came
    obtain rfl := Except.ok.inj same
    have published {writes : List Response} {result : Except Failure (List PullRequest)}
        (writing : Writing repository options (Patch.applyAll tasks) changes writes result) :=
      Course.published planned wet applied answer absent noting writing
    refine (publishing_converses discreet reporting _
      (.createBranch repository (wantedBranch repository options _ changes))).bind
      (fun created _ came => ?_) ?_
    · rcases came with ⟨_, rfl, _⟩ | ⟨_, _, _, _, same⟩
      · refine (publishing_converses discreet reporting _
          (.openPullRequest repository (wantedRequest repository options _))).bind
          (fun requested request came => ?_) ?_
        · rcases came with ⟨_, rfl, same⟩ | ⟨_, _, _, _, same⟩
          · obtain rfl := Except.ok.inj same
            refine Converses.log.bind (fun _ _ ⟨silent, _⟩ => ?_) (fun _ _ ⟨_, same⟩ => nomatch same)
            refine Converses.pure.weaken fun _ _ ⟨silent', came⟩ => ?_
            subst silent silent' came
            simpa using published (.opened request)
          · cases same
        · rintro requested failure (⟨_, _, same⟩ | ⟨cause, message, told, rfl, same⟩)
          · cases same
          · obtain rfl := Except.error.inj same
            simpa using published (.noRequest cause message told)
      · cases same
    · rintro created failure (⟨_, _, same⟩ | ⟨cause, message, told, rfl, same⟩)
      · cases same
      · obtain rfl := Except.error.inj same
        simpa using published (.noBranch cause message told)

private theorem forM_silent {items : List α} {act : α → Act σ Unit}
    (silent : ∀ item, Converses host (act item) fun responses result =>
      responses = [] ∧ result = .ok ()) :
    Converses host (items.forM act) fun responses result => responses = [] ∧ result = .ok () := by
  induction items with
  | nil => exact Converses.pure
  | cons item items ih =>
    refine (silent item).bind (fun responses _ ⟨asked, _⟩ => ?_) (fun _ _ ⟨_, same⟩ => nomatch same)
    subst asked
    exact ih

private theorem idle_converses {act : Act σ Unit} {tasks : List UpgradeTask}
    (silent : Converses host act fun responses result => responses = [] ∧ result = .ok ())
    (reason : tasks = [] ∨ options.dryRun = true ∨ (Patch.applyAll tasks).applied = []) :
    Converses host (do act; return []) (Course repository options tasks) := by
  refine silent.bind (fun _ _ ⟨asked, _⟩ => ?_) (fun _ _ ⟨_, same⟩ => nomatch same)
  refine Converses.pure.weaken fun _ _ ⟨asked', came⟩ => ?_
  subst asked asked' came
  exact .idle reason

private theorem proceed_converses (discreet : host.Discreet) (reporting : host.Reporting)
    (tasks : List UpgradeTask) :
    Converses host (proceed host repository options tasks) (Course repository options tasks) := by
  unfold proceed
  split
  · rename_i empty
    exact idle_converses Converses.log (.inl (List.isEmpty_iff.mp empty))
  · rename_i some
    refine Converses.after Converses.log ?_
    split
    · rename_i dry
      exact idle_converses (forM_silent fun _ => Converses.log) (.inr (.inl dry))
    · rename_i wet
      refine Converses.after (forM_silent fun _ => Converses.log) ?_
      split
      · rename_i empty
        exact idle_converses Converses.log (.inr (.inr (List.isEmpty_iff.mp empty)))
      · rename_i applied
        exact publish_converses discreet reporting (mt List.isEmpty_iff.mpr some)
          (Bool.eq_false_iff.mpr wet) (mt List.isEmpty_iff.mpr applied)

/-- An update changes the state of its host by its calls alone. -/
theorem createPullRequests_state (discreet : host.Discreet) (reporting : host.Reporting) (state : σ) :
    (createPullRequests host repository options state).state =
      host.after state (calls (createPullRequests host repository options state).events) := by
  have planning : Reads host (plan host repository) fun _ => True :=
    (Reads.rules discreet reporting).plan
  have converses : Converses host (createPullRequests host repository options) fun _ _ => True := by
    refine Converses.after Converses.log (Converses.bind planning ?_ fun _ _ _ => trivial)
    intro _ tasks _
    exact (proceed_converses discreet reporting tasks).weaken fun _ _ _ => trivial
  exact converses.state state

/-- An update plans by reading alone, and then takes its course with what it planned. -/
theorem createPullRequests_course (discreet : host.Discreet) (reporting : host.Reporting) {state : σ}
    {tasks : List UpgradeTask} (planned : (plan host repository state).result = .ok tasks) :
    ∃ reads rest,
      host.responses state (calls (createPullRequests host repository options state).events) =
        reads ++ rest ∧
      (∀ response ∈ reads, response.call.reads = true) ∧
      Course repository options tasks rest
        (createPullRequests host repository options state).result := by
  have planning : Reads host (plan host repository) fun _ => True :=
    (Reads.rules discreet reporting).plan
  have proceeding : Converses host (proceed host repository options tasks)
      (Course repository options tasks) := proceed_converses discreet reporting tasks
  have unfolded : createPullRequests host repository options state =
      ⟨(proceed host repository options tasks (plan host repository state).state).result,
        .log .info ("[terraform] " ++ ("Scanning " ++ repository.fullName
          ++ " for Terraform dependencies")) :: ((plan host repository state).events ++
          (proceed host repository options tasks (plan host repository state).state).events),
        (proceed host repository options tasks (plan host repository state).state).state⟩ := by
    rw [createPullRequests, bind_apply]
    simp only [log, Act.log, Act.record, bind_apply]
    generalize plan host repository state = outcome at planned ⊢
    obtain ⟨result, events, left⟩ := outcome
    obtain rfl : result = .ok tasks := planned
    rfl
  obtain ⟨reads, _⟩ := planning.post state
  rw [unfolded]
  refine ⟨_, _, ?_, reads, proceeding.post (plan host repository state).state⟩
  show host.responses state (calls ((plan host repository state).events ++ _)) = _
  rw [calls_append, Host.responses_append, ← planning.state state]

end InfraPins.Update
