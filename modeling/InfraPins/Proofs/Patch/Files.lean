import InfraPins.Proofs.Patch.Batch

namespace InfraPins.Patch

variable {path : String} {tasks : List UpgradeTask}

theorem path_of_change? {change : FileChange} (changed : change? path tasks = some change) :
    change.path = path := by
  unfold change? at changed
  split at changed
  · cases changed
  · exact congrArg FileChange.path (Option.some.inj changed).symm

theorem change?_nil (path : String) : change? path [] = none := if_pos rfl

theorem changes_of_path (path : String) (tasks : List UpgradeTask) :
    (applyAll tasks).changes.filter (·.path = path) = (change? path (tasksOf path tasks)).toList := by
  have own (other : String) : (change? other (tasksOf other tasks)).filter (·.path = path) =
      if other = path then change? path (tasksOf path tasks) else none := by
    cases changed : change? other (tasksOf other tasks) with
    | none =>
      by_cases same : other = path
      · subst same
        simp [changed]
      · simp [same]
    | some change =>
      have there := path_of_change? changed
      by_cases same : other = path
      · subst same
        simp [changed, there]
      · simp [there, same]
  have single : (pathsOf tasks).filter (· = path) = if path ∈ pathsOf tasks then [path] else [] := by
    rw [List.filter_eq, (nodup_pathsOf tasks).count]
    split <;> rfl
  calc
    (applyAll tasks).changes.filter (·.path = path) = (pathsOf tasks).filterMap
        fun other => if other = path then change? path (tasksOf path tasks) else none := by
      rw [changes_applyAll, List.filter_filterMap]
      exact List.filterMap_congr fun other _ => own other
    _ = ((pathsOf tasks).filter (· = path)).filterMap fun _ => change? path (tasksOf path tasks) := by
      rw [List.filterMap_filter]
      simp only [decide_eq_true_eq]
    _ = (change? path (tasksOf path tasks)).toList := by
      rw [single]
      by_cases known : path ∈ pathsOf tasks
      · cases change? path (tasksOf path tasks) <;> simp [known]
      · rw [tasksOf_eq_nil_iff.mpr known, change?_nil]
        simp [known]

/-- The tasks of one file that a batch applies are those that they would be alone. -/
theorem applied_of_path (path : String) (tasks : List UpgradeTask) :
    tasksOf path (applyAll tasks).applied =
      (sweep (seedOf (tasksOf path tasks)) (tasksOf path tasks)).2 := by
  rw [(follows_applyAll tasks).applied, ← changing_stepsFrom, ← stepsOf_path, tasksOf,
    List.filter_map, List.filter_filter, List.filter_filter]
  congr 1
  apply List.filter_congr
  intro step _
  exact Bool.and_comm _ _

/-- A batch is one fold for each file: the tasks take their turns in task order; those of one path
start from the text that the first of them brings, each finds what the one before it left; a task is
applied exactly when its step changes what it finds; and each path whose text is different in the end
is changed once, in the order of first appearance. So what becomes of one path does not depend on the
tasks of other paths or on how they come between. -/
theorem applyAll_folds_each_file (tasks : List UpgradeTask) :
    (stepsOf tasks).map Step.task = tasks ∧
      (∀ path, (stepsOf tasks).filter (·.task.dependency.path = path) =
        stepsFrom (seedOf (tasksOf path tasks)) (tasksOf path tasks)) ∧
      (applyAll tasks).applied = ((stepsOf tasks).filter Step.changes).map Step.task ∧
      (applyAll tasks).changes =
        (pathsOf tasks).filterMap (fun path => change? path (tasksOf path tasks)) ∧
      ∀ path others, tasksOf path others = tasksOf path tasks →
        (applyAll others).changes.filter (·.path = path) =
            (applyAll tasks).changes.filter (·.path = path) ∧
          (stepsOf others).filter (·.task.dependency.path = path) =
            (stepsOf tasks).filter (·.task.dependency.path = path) ∧
          tasksOf path (applyAll others).applied = tasksOf path (applyAll tasks).applied := by
  refine ⟨map_task_stepsAfter [] tasks, (stepsOf_path · tasks), (follows_applyAll tasks).applied,
    changes_applyAll tasks, fun path others same => ⟨?_, ?_, ?_⟩⟩
  · rw [changes_of_path, changes_of_path, same]
  · rw [stepsOf_path, stepsOf_path, same]
  · rw [applied_of_path, applied_of_path, same]

end InfraPins.Patch
