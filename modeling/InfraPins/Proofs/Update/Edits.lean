import InfraPins.Proofs.Patch.Ascent
import InfraPins.Proofs.Plan
import InfraPins.Proofs.Update.Protocol
import InfraPins.Proofs.Update.Restraint

namespace InfraPins.Update

open Act Patch

variable {σ : Type} {host : Host σ} {repository : Repository} {options : UpdateOptions}
  {tasks : List UpgradeTask} {permitted : Call → Prop}

/-- What may be written about a batch in which something was applied: a branch and a pull request that
tell of the tasks that were applied, and in the branch every change of the batch. -/
def Tells (repository : Repository) (options : UpdateOptions) (batch : Batch) : Call → Prop
  | .createBranch other input => other = repository ∧ batch.applied ≠ [] ∧
      input = wantedBranch repository options batch input.changes ∧
      ∀ change ∈ batch.changes, change ∈ input.changes
  | .openPullRequest other input => other = repository ∧ batch.applied ≠ [] ∧
      input = wantedRequest repository options batch
  | _ => True

private theorem publishing_refrains (discreet : host.Discreet) {opening : String} {call : Call}
    (allowed : permitted call) :
    Refrains permitted (publishing opening (host.ask call)) fun _ => True := by
  unfold publishing
  refine Refrains.bind ((Refrains.ask discreet allowed).attempt _) fun answer _ => ?_
  cases answer with
  | ok value => exact Refrains.rules.pure trivial
  | error message => exact Refrains.of_silent (fun _ => rfl) fun _ _ _ => trivial

private theorem pullRequestOpen_refrains (discreet : host.Discreet) {branch : String}
    (allowed : permitted (.pullRequestExists repository branch)) :
    Refrains permitted (pullRequestOpen host repository branch) fun _ => True := by
  unfold pullRequestOpen
  refine Refrains.bind ((Refrains.ask discreet allowed).attempt _) fun answer _ => ?_
  cases answer with
  | ok found => exact Refrains.rules.pure trivial
  | error message => exact Refrains.bind Refrains.log fun _ _ => Refrains.rules.pure trivial

private theorem withChangelog_refrains (discreet : host.Discreet)
    (looks : permitted (.hasFile repository Changelog.path))
    (reads : permitted (.fetchFile repository Changelog.path)) (changes : List FileChange) :
    Refrains permitted (withChangelog host repository tasks changes) fun found =>
      ∀ change ∈ changes, change ∈ found := by
  have kept : Refrains permitted (pure changes : Act σ (List FileChange)) fun found =>
      ∀ change ∈ changes, change ∈ found := Refrains.rules.pure fun _ member => member
  have glance : Refrains permitted (do
      if (← host.askHasFile repository Changelog.path) then
        return some (← host.askContent repository Changelog.path)
      else return none : Act σ (Option String)) fun _ => True := by
    refine Refrains.bind (Refrains.ask discreet looks) fun present _ => ?_
    split
    · exact Refrains.bind (Refrains.ask discreet reads) fun _ _ => Refrains.rules.pure trivial
    · exact Refrains.rules.pure trivial
  unfold withChangelog
  refine Refrains.bind (glance.attempt _) fun answer _ => ?_
  split
  · dsimp only
    split
    · exact kept
    · exact Refrains.rules.pure fun _ member => List.mem_append_left _ member
  · exact kept
  · exact Refrains.bind Refrains.log fun _ _ => kept

/-- Publishing writes nothing but what tells of the batch. -/
theorem applyAndPublish_tells (discreet : host.Discreet) (tasks : List UpgradeTask) :
    Refrains (Tells repository options (applyAll tasks))
      (applyAndPublish host repository options tasks) fun _ => True := by
  have rules := @Refrains.rules σ (Tells repository options (applyAll tasks))
  unfold applyAndPublish
  refine rules.bind (rules.forM fun _ _ => Refrains.log) fun _ _ => ?_
  split
  · exact rules.bind Refrains.log fun _ _ => rules.pure trivial
  · rename_i some
    have applied : (applyAll tasks).applied ≠ [] := mt List.isEmpty_iff.mpr some
    unfold publish
    refine rules.bind (pullRequestOpen_refrains discreet trivial) fun found _ => ?_
    split
    · exact rules.bind Refrains.log fun _ _ => rules.pure trivial
    · refine rules.bind (withChangelog_refrains discreet trivial trivial _) fun changes kept => ?_
      refine rules.bind (publishing_refrains discreet ⟨rfl, applied, rfl, kept⟩) fun _ _ => ?_
      refine rules.bind (publishing_refrains discreet ⟨rfl, applied, rfl⟩) fun _ _ => ?_
      exact rules.bind Refrains.log fun _ _ => rules.pure trivial

/-- What an update writes tells of the tasks that it planned and applied. -/
theorem tells_of_write (discreet : host.Discreet) {state : σ} {call : Call}
    (asked : call ∈ calls (createPullRequests host repository options state).events)
    (writes : call.writes = true) :
    ∃ planned, (plan host repository state).result = .ok planned ∧
      Tells repository options (applyAll planned) call := by
  rcases asked_by_plan_or_after (applyAndPublish_tells discreet) asked with early | late
  · have reads : Refrains (fun call => call.reads = true) (plan host repository) fun _ => True :=
      (Refrains.readingRules discreet fun _ reads => reads).plan
    rw [Call.writes_of_reads ((reads state).1 call early)] at writes
    cases writes
  · exact late

/-- Planned tasks go to newer versions. -/
theorem rises_of_plan (discreet : host.Discreet) {state : σ}
    (planned : (plan host repository state).result = .ok tasks) {task : UpgradeTask}
    (member : task ∈ tasks) (versioned : Versioned task) : Rises task := by
  have planning : Refrains (fun _ => True) (plan host repository) fun tasks =>
      ∃ answers scanned, Plan.tasks answers scanned = .ok tasks :=
    (Refrains.readingRules discreet fun _ _ => trivial).plan_tasks
  obtain ⟨answers, scanned, made⟩ := (planning state).2 tasks planned
  obtain ⟨_, _, _, _, decided⟩ := Plan.mem_tasks made member
  exact ⟨versioned, Plan.isNewer_of_upgrade? decided⟩

/-- No upgrade is without an edit. Where tasks go from versions to newer ones, the file of each task that
is applied is changed, and no file is changed where no task is applied. What an update writes tells of
the tasks that it planned and applied; where these have versions, its branch has an edit of the file of
each of them. -/
theorem upgrades_have_edits (tasks : List UpgradeTask) (rises : ∀ task ∈ tasks, Rises task)
    (host : Host σ) (discreet : host.Discreet) (repository : Repository) (options : UpdateOptions)
    (state : σ) :
    (∀ task ∈ (applyAll tasks).applied, HasEdit tasks (applyAll tasks).changes task) ∧
    ((applyAll tasks).applied = [] ↔ (applyAll tasks).changes = []) ∧
    ∀ call ∈ calls (createPullRequests host repository options state).events, call.writes = true →
      ∃ planned, (plan host repository state).result = .ok planned ∧
        Tells repository options (applyAll planned) call ∧
        ((∀ task ∈ planned, Versioned task) → ∀ other input, call = .createBranch other input →
          ∀ task ∈ (applyAll planned).applied, HasEdit planned input.changes task) := by
  refine ⟨fun task applied => hasEdit_of_applied rises applied, ⟨changes_of_idle, fun none => ?_⟩, ?_⟩
  · by_contra some
    obtain ⟨task, applied⟩ := List.exists_mem_of_ne_nil _ some
    obtain ⟨change, listed, _⟩ := hasEdit_of_applied rises applied
    rw [none] at listed
    cases listed
  · intro call asked writes
    obtain ⟨planned, made, tells⟩ := tells_of_write discreet asked writes
    refine ⟨planned, made, tells, ?_⟩
    rintro versioned other input rfl task applied
    obtain ⟨_, _, _, kept⟩ := tells
    have upward : ∀ task ∈ planned, Rises task := fun task member =>
      rises_of_plan discreet made member (versioned task member)
    obtain ⟨change, listed, path, different⟩ := hasEdit_of_applied upward applied
    exact ⟨change, kept change listed, path, different⟩

private def risingUpgrade : UpgradeTask where
  dependency := ⟨"a", "git::net", "v1", "a.tf", 1, .module⟩
  newVersion := "v2"
  content := pinnedText

private theorem risingUpgrade_rises : Rises risingUpgrade where
  current := by decide +kernel
  next := by decide +kernel
  plain := by
    intro _
    exact mt Text.occurs_iff.mpr (by decide +kernel)
  newer := by decide +kernel

theorem upgrades_have_edits_sample :
    let batch := applyAll [risingUpgrade]
    let events := (createPullRequests (agreeable pinnedText) oneFileProject {} ()).events
    (∀ task ∈ batch.applied, HasEdit [risingUpgrade] batch.changes task) ∧
    (batch.applied = [] ↔ batch.changes = []) ∧
    ∀ call ∈ calls events, call.writes = true →
      ∃ planned, (plan (agreeable pinnedText) oneFileProject ()).result = .ok planned ∧
        Tells oneFileProject {} (applyAll planned) call ∧
        ((∀ task ∈ planned, Versioned task) → ∀ other input, call = .createBranch other input →
          ∀ task ∈ (applyAll planned).applied, HasEdit planned input.changes task) :=
  upgrades_have_edits [risingUpgrade]
    (fun _ member => List.mem_singleton.mp member ▸ risingUpgrade_rises) (agreeable pinnedText)
    (agreeable_orderly pinnedText_legible).discreet oneFileProject {} ()

end InfraPins.Update
