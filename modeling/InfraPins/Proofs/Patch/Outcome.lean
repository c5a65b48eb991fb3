import InfraPins.Proofs.Patch.Locality
import InfraPins.Proofs.Patch.Rollout
import InfraPins.Proofs.Patch.Turn
import InfraPins.Proofs.Plan

/-! The outcome of a plan. Where each task, when its turn comes, locates its reference as it is
written, and where no planned reference is quoted more often than it is planned, every task is
applied, and every upgrade shows when the file is scanned again. -/

namespace InfraPins.Patch

open Text Scan

/-- Each task, when its turn comes, locates its reference in what the tasks before it left. -/
inductive LocatesInTurn : List Char → List UpgradeTask → Prop where
  | nil (content : List Char) : LocatesInTurn content []
  | cons {content : List Char} {task : UpgradeTask} {tasks : List UpgradeTask}
    (here : Locates content task.dependency)
    (onward : LocatesInTurn (patch content task).content tasks) :
    LocatesInTurn content (task :: tasks)

/-- What a plan says of its tasks, by the version that each source goes to. -/
structure Plans (format : FileFormat) (latest : String → String) (task : UpgradeTask) : Prop where
  kind : task.kind = format.kind
  referable : Referable format.kind task.dependency.source.toList task.dependency.current.toList
  tag : TagVersion task.newVersion
  target : task.newVersion = latest task.dependency.source
  moves : task.newVersion ≠ task.dependency.current

/-- A pin that is as it was, or at the version that its source goes to. -/
structure Advances (latest : String → String) (first second : Pin) : Prop where
  name : second.name = first.name
  source : second.source = first.source
  current : second.current = first.current ∨ second.current = latest first.source

/-- What tasks in order make of a file. -/
structure Outcome (format : FileFormat) (path : String) (latest : String → String)
    (content : List Char) (tasks : List UpgradeTask) (found : List Dependency) : Prop where
  applied : (sweep content tasks).2 = tasks
  counted : ∀ pin : List Char × List Char, latest (String.ofList pin.1) ≠ String.ofList pin.2 →
    (quotedReferences format.kind (sweep content tasks).1).count pin +
      (tasks.map Rollout.pin).count pin = (quotedReferences format.kind content).count pin
  rescanned : ∃ report', report (String.ofList (sweep content tasks).1) path format = .ok report' ∧
    List.Forall₂ (fun first second => Advances latest first.pin second.pin) found
      report'.dependencies ∧
    (tasks = [] ∨ ∀ dependency ∈ report'.dependencies,
      (dependency.source.toList, dependency.current.toList) ∈
        quotedReferences format.kind (sweep content tasks).1)

variable {format : FileFormat} {path : String} {latest : String → String} {content : List Char}
  {tasks : List UpgradeTask}

private theorem Advances.refl (pin : Pin) : Advances latest pin pin :=
  ⟨rfl, rfl, .inl rfl⟩

private theorem Advances.trans {first second third : Pin} (one : Advances latest first second)
    (two : Advances latest second third) : Advances latest first third := by
  refine ⟨two.name.trans one.name, two.source.trans one.source, ?_⟩
  rcases two.current with same | moved
  · exact one.current.imp same.trans same.trans
  · exact .inr (one.source ▸ moved)

private theorem Plans.advances {task : UpgradeTask} (plans : Plans format latest task)
    {first second : Pin} (upgrades : Upgrades task.dependency.source task.dependency.current
      task.newVersion first second) : Advances latest first second := by
  refine ⟨upgrades.name, upgrades.source, upgrades.current.imp_right ?_⟩
  rintro ⟨source, _, new⟩
  rw [new, plans.target, source]

/-- Tasks that locate their references in turn are all applied. Each puts one quoted reference in the
place of another, and what is scanned advances. -/
theorem outcome_of_locates {scanned : Report}
    (tidy : format = .terraform → Tidy (String.ofList content))
    (scan : report (String.ofList content) path format = .ok scanned)
    (plans : ∀ task ∈ tasks, Plans format latest task) (located : LocatesInTurn content tasks) :
    Outcome format path latest content tasks scanned.dependencies := by
  induction located generalizing scanned with
  | nil content =>
    exact ⟨rfl, fun _ _ => rfl, scanned, scan,
      List.forall₂_same.mpr fun _ _ => .refl _, .inl rfl⟩
  | @cons content task tasks here _ ih =>
    have plan := plans task List.mem_cons_self
    have turns := task_turns tidy scan plan.tag plan.kind plan.referable here
    obtain ⟨report', after, upgrades, quoted⟩ := turns.rescanned
    have rest := ih turns.tidy after fun other member => plans other (List.mem_cons_of_mem _ member)
    have changed : (patch content task).content ≠ content := by
      refine turns.requotes.ne fun same => plan.moves ?_
      exact String.toList_inj.mp same
    constructor
    · simp [sweep, changed, rest.applied]
    · intro pin moves
      have apart : (task.dependency.source.toList, task.newVersion.toList) ≠ pin := by
        rintro rfl
        exact moves (by simp [plan.target])
      have here : (quotedReferences format.kind (patch content task).content).count pin +
          [Rollout.pin task].count pin = (quotedReferences format.kind content).count pin :=
        turns.requotes.count_add apart
      have onward := rest.counted pin moves
      simp only [sweep, List.map_cons, List.count_cons, List.count_nil] at here ⊢
      omega
    · obtain ⟨last, final, advances, stands⟩ := rest.rescanned
      refine ⟨last, final, ?_, .inr ?_⟩
      · have first := upgrades.imp fun _ _ one => plan.advances one
        exact Result.forall₂_trans (fun _ _ _ one two => one.trans two) first advances
      · rcases stands with rfl | stands
        · obtain rfl := Except.ok.inj (after.symm.trans final)
          exact quoted
        · exact stands

/-- A dependency before and after a file is upgraded. -/
structure Upgraded (applied : List UpgradeTask) (old new : Dependency) : Prop where
  name : new.name = old.name
  source : new.source = old.source
  current : ∀ task ∈ applied, task.dependency = old → new.current = task.newVersion

private def firstTag (answers : Plan.Answers) (source : String) : String :=
  match (answers.tags source).head? with
  | some (.text version) => version
  | _ => ""

private theorem plans_of_tasks {text : String} {answers : Plan.Answers} {scanned : Report}
    (tidy : format = .terraform → Tidy text) (scan : report text path format = .ok scanned)
    (tags : ∀ source, ∀ tag ∈ answers.tags source, ∃ version, tag = .text version ∧
      TagVersion version)
    (plan : Plan.tasks answers (scanned.dependencies.map (⟨·, text⟩)) = .ok tasks)
    {task : UpgradeTask} (member : task ∈ tasks) :
    Plans format (firstTag answers) task ∧ task.dependency ∈ scanned.dependencies ∧
      task.content = text := by
  obtain ⟨result, present, dependency, content, upgrade⟩ := Plan.mem_tasks plan member
  obtain ⟨found, inside, rfl⟩ := List.mem_map.mp present
  obtain ⟨first, moves⟩ := Plan.upgrade?_eq_some upgrade
  obtain ⟨version, same, tag⟩ := tags _ _ (List.mem_of_head? first)
  obtain rfl := Datum.text.inj same
  have member : task.dependency ∈ scanned.dependencies := by rwa [dependency]
  refine ⟨⟨report_kind scan member, referable_of_mem tidy scan member, tag, ?_, moves⟩, member,
    content⟩
  rw [firstTag, first]

private theorem Outcome.upgraded {found : List Dependency}
    (outcome : Outcome format path latest content tasks found)
    (plans : ∀ task ∈ tasks, Plans format latest task)
    (sole : ∀ task ∈ tasks, (quotedReferences task.kind content).count (Rollout.pin task) ≤
      (tasks.map Rollout.pin).count (Rollout.pin task)) :
    ∃ report', report (String.ofList (sweep content tasks).1) path format = .ok report' ∧
      List.Forall₂ (Upgraded tasks) found report'.dependencies := by
  obtain ⟨report', scan, advances, stands⟩ := outcome.rescanned
  refine ⟨report', scan, ?_⟩
  have each : ∀ second ∈ report'.dependencies,
      tasks = [] ∨ (second.source.toList, second.current.toList) ∈
        quotedReferences format.kind (sweep content tasks).1 := fun second member =>
    stands.imp_right fun all => all second member
  have quoted := ((List.forall₂_and_left _ _).mpr ⟨each, advances.flip⟩).flip
  refine quoted.imp fun old new both => ⟨both.2.name, both.2.source, ?_⟩
  intro task member same
  have plan := plans task member
  rcases both.2.current with kept | moved
  · exfalso
    have gone : (quotedReferences format.kind (sweep content tasks).1).count (Rollout.pin task) = 0 := by
      have moves : latest task.dependency.source ≠ task.dependency.current :=
        plan.target ▸ plan.moves
      have counted := outcome.counted (Rollout.pin task) (by simpa [Rollout.pin] using moves)
      have most := sole task member
      rw [plan.kind] at most
      omega
    rcases both.1 with rfl | here
    · cases member
    · have pin : (new.source.toList, new.current.toList) = Rollout.pin task := by
        have source : new.source = old.source := both.2.source
        have current : new.current = old.current := kept
        rw [source, current, ← same]
        rfl
      rw [pin] at here
      exact absurd here (List.count_eq_zero.mp gone)
  · rw [plan.target, same]
    exact moved

/-- Every task of a plan is applied, and its upgrade shows when the file is scanned again: at the
place of its dependency stands one with the same name and source at the new version. -/
theorem applied_upgrades_show {path text : String} {scanned : Report} {answers : Plan.Answers}
    {tasks : List UpgradeTask}
    (tidy : FileFormat.ofPath? path = some .terraform → Tidy text)
    (scan : reportAs text path none = .ok scanned)
    (tags : ∀ source, ∀ tag ∈ answers.tags source, ∃ version, tag = .text version ∧
      TagVersion version)
    (plan : Plan.tasks answers (scanned.dependencies.map (⟨·, text⟩)) = .ok tasks)
    (located : LocatesInTurn text.toList tasks)
    (sole : ∀ task ∈ tasks, (quotedReferences task.kind text.toList).count (Rollout.pin task) ≤
      (tasks.map Rollout.pin).count (Rollout.pin task)) :
    (applyAll tasks).applied = tasks ∧ ∀ task ∈ tasks, ∃ patched rescanned,
      (applyAll tasks).changes = [{ path, content := patched }] ∧
      reportAs patched path none = .ok rescanned ∧
      List.Forall₂ (Upgraded tasks) scanned.dependencies rescanned.dependencies := by
  cases known : FileFormat.ofPath? path with
  | none =>
    have empty : scanned = ⟨none, []⟩ := by
      simp only [reportAs, Option.none_or, known] at scan
      exact (Except.ok.inj scan).symm
    obtain rfl : [] = tasks := by
      rw [empty] at plan
      exact Except.ok.inj plan
    refine ⟨rfl, ?_⟩
    rintro _ ⟨⟩
  | some format =>
    have format' (text : String) : reportAs text path none = report text path format := by
      simp only [reportAs, Option.none_or, known]
    rw [format'] at scan
    have tidy' (terraform : format = .terraform) : Tidy text := tidy (terraform ▸ known)
    have facts {task : UpgradeTask} (member : task ∈ tasks) :=
      plans_of_tasks tidy' scan tags plan member
    have here : ∀ task ∈ tasks, task.dependency.path = path := fun task member =>
      report_path scan (facts member).2.1
    have seeded : ∀ task ∈ tasks, task.content.toList = text.toList := fun task member =>
      congrArg String.toList (facts member).2.2
    have outcome : Outcome format path (firstTag answers) text.toList tasks scanned.dependencies :=
      outcome_of_locates (by simpa using tidy') (by simpa using scan)
        (fun task member => (facts member).1) located
    refine ⟨(applied_eq_sweep here seeded).trans outcome.applied, fun task member => ?_⟩
    obtain ⟨rescanned, again, upgraded⟩ :=
      outcome.upgraded (fun task member => (facts member).1) sole
    refine ⟨_, rescanned, ?_, (format' _).trans again, upgraded⟩
    rw [changes_eq_sweep here seeded, if_neg]
    -- The same text would be scanned with the same versions.
    intro same
    rw [same, String.ofList_toList] at again
    obtain rfl := Except.ok.inj (scan.symm.trans again)
    have self := List.forall₂_same.mp upgraded _ (facts member).2.1
    exact (facts member).1.moves (self.current task member rfl).symm

private def sampleTask (name source : String) (line : Nat) : UpgradeTask :=
  ⟨⟨name, source, "v1", "main.tf", line, .module⟩, "v2", twoModules⟩

private def sampleTasks : List UpgradeTask :=
  [sampleTask "x" "git::https://h/x" 1, sampleTask "a" "git::https://h/a?depth=1" 2]

private theorem sampleTasks_locate : LocatesInTurn twoModules.toList sampleTasks := by
  have first : Locates twoModules.toList (sampleTask "x" "git::https://h/x" 1).dependency := by
    have found : findWhole? (referenceText (sampleTask "x" "git::https://h/x" 1).dependency)
        twoModules.toList = some ⟨"module \"x\" \x7b source = \"".toList,
          ("\" \x7d\nmodule \"a\" \x7b source = \"git::https://h/a?ref=v1&depth=1\" \x7d\n").toList⟩ := by
      decide +kernel
    refine .text found ?_ ?_ <;> decide
  have second : Locates (patch twoModules.toList (sampleTask "x" "git::https://h/x" 1)).content
      (sampleTask "a" "git::https://h/a?depth=1" 2).dependency := by
    let address := sampleAddress "git::https://h/a".toList [] ["depth=1".toList] (by decide)
    refine .block rfl (inBlock_of_tails address ?_ ?_ ?_ ?_ ?_) <;> decide +kernel
  exact .cons first (.cons second (.nil _))

private theorem sampleTags {answers : Plan.Answers}
    (all : ∀ answer ∈ answers, answer.2 = [.text "v2"]) (source : String) :
    ∀ tag ∈ answers.tags source, ∃ version, tag = .text version ∧ TagVersion version := by
  intro tag member
  obtain ⟨answer, here, inside⟩ := Plan.Answers.exists_mem_of_mem_tags member
  rw [all answer here] at inside
  refine ⟨"v2", List.mem_singleton.mp inside, by decide, fun c member => ?_⟩
  exact Bool.eq_false_iff.mpr
    (List.any_eq_false.mp (by decide : "v2".toList.any isBlank = false) c member)

theorem applied_upgrades_show_sample :
    (applyAll sampleTasks).applied = sampleTasks ∧ ∃ patched rescanned,
      (applyAll sampleTasks).changes = [{ path := "main.tf", content := patched }] ∧
      reportAs patched "main.tf" none = .ok rescanned ∧
      List.Forall₂ (Upgraded sampleTasks) (sampleTasks.map UpgradeTask.dependency)
        rescanned.dependencies := by
  have scan : reportAs twoModules "main.tf" none =
      .ok ⟨none, sampleTasks.map UpgradeTask.dependency⟩ := by decide +kernel
  have plan : Plan.tasks [("git::https://h/x", [.text "v2"]), ("git::https://h/a?depth=1", [.text "v2"])]
      ((sampleTasks.map UpgradeTask.dependency).map (⟨·, twoModules⟩)) = .ok sampleTasks := by
    decide +kernel
  have outcome := applied_upgrades_show (fun _ => twoModules_tidy) scan (sampleTags (by simp)) plan
    sampleTasks_locate (by decide +kernel)
  exact ⟨outcome.1, outcome.2 _ List.mem_cons_self⟩

private def mentioned (version : String) : String :=
  "# was git::https://h/net?ref=" ++ version ++ "\n" ++
    "module \"a\" \x7b\n  source = \"git::https://h/net?ref=v1\"\n\x7d\n"

private def mentionedTask : UpgradeTask :=
  ⟨⟨"a", "git::https://h/net", "v1", "a.tf", 2, .module⟩, "v2", mentioned "v1"⟩

/-- Where a comment quotes a reference before the block of its module does, the task is applied to the
comment: scanned again, the module is at the version that it was. -/
theorem not_applied_upgrades_show :
    ¬ ∀ (path text : String) (scanned : Report) (answers : Plan.Answers) (tasks : List UpgradeTask),
      reportAs text path none = .ok scanned →
      (∀ source, ∀ tag ∈ answers.tags source, ∃ version, tag = .text version ∧
        TagVersion version) →
      Plan.tasks answers (scanned.dependencies.map (⟨·, text⟩)) = .ok tasks →
      ∀ task ∈ (applyAll tasks).applied, ∃ change ∈ (applyAll tasks).changes, change.path = path ∧
        ∃ rescanned, reportAs change.content path none = .ok rescanned ∧
          ∀ i : Nat, scanned.dependencies[i]? = some task.dependency →
            ∃ new, rescanned.dependencies[i]? = some new ∧ new.name = task.dependency.name ∧
              new.source = task.dependency.source ∧ new.current = task.newVersion := by
  intro shows
  have found (version : String) (known : version = "v1" ∨ version = "v2") :
      reportAs (mentioned version) "a.tf" none = .ok ⟨none, [mentionedTask.dependency]⟩ := by
    rcases known with rfl | rfl <;> decide +kernel
  have plan : Plan.tasks [("git::https://h/net", [.text "v2"])]
      [⟨mentionedTask.dependency, mentioned "v1"⟩] = .ok [mentionedTask] := by
    decide +kernel
  have applied : (applyAll [mentionedTask]).applied = [mentionedTask] := by decide +kernel
  have changes : (applyAll [mentionedTask]).changes =
      [{ path := "a.tf", content := mentioned "v2" }] := by decide +kernel
  obtain ⟨change, changed, _, rescanned, again, stands⟩ := shows "a.tf" (mentioned "v1") _
    [("git::https://h/net", [.text "v2"])] _ (found "v1" (.inl rfl)) (sampleTags (by simp)) plan
    mentionedTask (by simp [applied])
  rw [changes, List.mem_singleton] at changed
  subst changed
  obtain rfl := Except.ok.inj ((found "v2" (.inr rfl)).symm.trans again)
  obtain ⟨new, here, _, _, current⟩ := stands 0 rfl
  obtain rfl := Option.some.inj here
  exact absurd current (by decide)

end InfraPins.Patch
