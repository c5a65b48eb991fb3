import InfraPins.Upgrade.Patch
import Mathlib.Data.List.Induction
import Mathlib.Data.List.Nodup

/-! Batches. One loop takes tasks of all files in turn; what it makes of a file is a sweep: the tasks
of its path in order, from the text that the first of them brings. The tasks of other paths have no
say in that, nor has the way in which they come between. -/

namespace InfraPins.Patch

/-- One text after tasks in order, and the tasks that changed it. -/
def sweep (content : List Char) : List UpgradeTask → List Char × List UpgradeTask
  | [] => (content, [])
  | task :: tasks =>
    let patched := (patch content task).content
    let rest := sweep patched tasks
    (rest.1, if patched = content then rest.2 else task :: rest.2)

theorem sweep_append (content : List Char) (tasks : List UpgradeTask) (task : UpgradeTask) :
    (sweep content (tasks ++ [task])).1 = (patch (sweep content tasks).1 task).content := by
  induction tasks generalizing content with
  | nil => rfl
  | cons first tasks ih => exact ih _

def tasksOf (path : String) (tasks : List UpgradeTask) : List UpgradeTask :=
  tasks.filter fun task => task.dependency.path = path

/-- The text that the first of some tasks brings. -/
def seedOf : List UpgradeTask → List Char
  | [] => []
  | task :: _ => task.content.toList

/-- What the tasks of one path make of its file. -/
def textAfter (tasks : List UpgradeTask) : List Char :=
  (sweep (seedOf tasks) tasks).1

/-- The paths of tasks, in the order in which they first appear. -/
def pathsOf (tasks : List UpgradeTask) : List String :=
  (tasks.map (·.dependency.path)).eraseDups

/-- The change of a file by the tasks of its path, if they leave it different from what it was. -/
def change? (path : String) (tasks : List UpgradeTask) : Option FileChange :=
  if textAfter tasks = seedOf tasks then none
  else some { path, content := String.ofList (textAfter tasks) }

/-- One task in its turn, with the text that it finds. -/
structure Step where
  task : UpgradeTask
  found : List Char
  deriving DecidableEq

/-- The text that a step leaves. -/
def Step.left (step : Step) : List Char :=
  (patch step.found step.task).content

def Step.changes (step : Step) : Bool :=
  step.left ≠ step.found

/-- The steps of tasks of one path, each from what the one before it leaves. -/
def stepsFrom (content : List Char) : List UpgradeTask → List Step
  | [] => []
  | task :: tasks => ⟨task, content⟩ :: stepsFrom (patch content task).content tasks

/-- The step of a task that comes after others: it finds what those of its path leave, or else the
text that it brings. -/
def stepAfter (earlier : List UpgradeTask) (task : UpgradeTask) : Step :=
  let own := tasksOf task.dependency.path earlier
  ⟨task, (sweep (seedOf (own ++ [task])) own).1⟩

def stepsAfter (earlier : List UpgradeTask) : List UpgradeTask → List Step
  | [] => []
  | task :: later => stepAfter earlier task :: stepsAfter (earlier ++ [task]) later

def stepsOf (tasks : List UpgradeTask) : List Step :=
  stepsAfter [] tasks

@[simp]
theorem task_stepAfter (earlier : List UpgradeTask) (task : UpgradeTask) :
    (stepAfter earlier task).task = task := rfl

variable {path : String} {content seed : List Char} {tasks : List UpgradeTask} {task : UpgradeTask}

theorem tasksOf_append_of_eq (here : task.dependency.path = path) :
    tasksOf path (tasks ++ [task]) = tasksOf path tasks ++ [task] := by
  simp [tasksOf, here]

theorem tasksOf_append_of_ne (elsewhere : task.dependency.path ≠ path) :
    tasksOf path (tasks ++ [task]) = tasksOf path tasks := by
  simp [tasksOf, elsewhere]

theorem tasksOf_eq_nil_iff : tasksOf path tasks = [] ↔ path ∉ pathsOf tasks := by
  simp [tasksOf, pathsOf, List.mem_eraseDups]

theorem seedOf_append (known : tasks ≠ []) : seedOf (tasks ++ [task]) = seedOf tasks := by
  cases tasks with
  | nil => exact absurd rfl known
  | cons first tasks => rfl

theorem pathsOf_append_of_mem (known : task.dependency.path ∈ pathsOf tasks) :
    pathsOf (tasks ++ [task]) = pathsOf tasks := by
  have there := List.mem_eraseDups.mp known
  have none : [task.dependency.path].removeAll (tasks.map (·.dependency.path)) = [] := by
    simp only [List.removeAll, List.filter_cons, List.elem_eq_mem, there, decide_true]
    rfl
  rw [pathsOf, List.map_append, List.eraseDups_append, List.map_singleton, none]
  exact List.append_nil _

theorem pathsOf_append_of_notMem (fresh : task.dependency.path ∉ pathsOf tasks) :
    pathsOf (tasks ++ [task]) = pathsOf tasks ++ [task.dependency.path] := by
  have nowhere : task.dependency.path ∉ tasks.map (·.dependency.path) :=
    fun there => fresh (List.mem_eraseDups.mpr there)
  have one : [task.dependency.path].removeAll (tasks.map (·.dependency.path)) =
      [task.dependency.path] := by
    simp only [List.removeAll, List.filter_cons, List.elem_eq_mem, nowhere, decide_false]
    rfl
  rw [pathsOf, List.map_append, List.eraseDups_append, List.map_singleton, one]
  rfl

theorem nodup_pathsOf (tasks : List UpgradeTask) : (pathsOf tasks).Nodup := by
  induction tasks using List.reverseRecOn with
  | nil => exact List.nodup_nil
  | append_singleton tasks task ih =>
    by_cases known : task.dependency.path ∈ pathsOf tasks
    · rw [pathsOf_append_of_mem known]
      exact ih
    · rw [pathsOf_append_of_notMem known]
      exact List.nodup_append.mpr ⟨ih, List.nodup_singleton _, by
        intro path member _ last
        obtain rfl := List.mem_singleton.mp last
        rintro rfl
        exact known member⟩

def bufferOf (tasks : List UpgradeTask) (path : String) : Buffer :=
  ⟨path, seedOf (tasksOf path tasks), textAfter (tasksOf path tasks)⟩

/-- What a batch keeps to while tasks are applied: it has one buffer for each path, which tells of
the tasks of that path alone, and it lists the tasks whose steps changed something. -/
structure Batch.Follows (batch : Batch) (tasks : List UpgradeTask) : Prop where
  buffers : batch.buffers = (pathsOf tasks).map (bufferOf tasks)
  applied : batch.applied = ((stepsOf tasks).filter Step.changes).map Step.task

theorem find?_bufferOf_of_mem (known : path ∈ pathsOf tasks) :
    ((pathsOf tasks).map (bufferOf tasks)).find? (·.path = path) = some (bufferOf tasks path) := by
  cases found : ((pathsOf tasks).map (bufferOf tasks)).find? (·.path = path) with
  | none =>
    have missed := List.find?_eq_none.mp found _ (List.mem_map_of_mem known)
    simp [bufferOf] at missed
  | some buffer =>
    obtain ⟨other, _, rfl⟩ := List.mem_map.mp (List.mem_of_find?_eq_some found)
    have same : (bufferOf tasks other).path = path := by simpa using List.find?_some found
    obtain rfl : other = path := same
    rfl

theorem find?_bufferOf_of_notMem (fresh : path ∉ pathsOf tasks) :
    ((pathsOf tasks).map (bufferOf tasks)).find? (·.path = path) = none := by
  apply List.find?_eq_none.mpr
  intro buffer member
  obtain ⟨other, inside, rfl⟩ := List.mem_map.mp member
  intro same
  have same : (bufferOf tasks other).path = path := by simpa using same
  obtain rfl : other = path := same
  exact fresh inside

/-- The text that a task finds is that of its buffer, or else the one that it brings. -/
theorem found_stepAfter (tasks : List UpgradeTask) (task : UpgradeTask) :
    (stepAfter tasks task).found = if task.dependency.path ∈ pathsOf tasks then
      textAfter (tasksOf task.dependency.path tasks) else task.content.toList := by
  by_cases known : task.dependency.path ∈ pathsOf tasks
  · have some : tasksOf task.dependency.path tasks ≠ [] := fun none => tasksOf_eq_nil_iff.mp none known
    simp only [stepAfter, seedOf_append some, known, if_true, textAfter]
  · simp only [stepAfter, tasksOf_eq_nil_iff.mpr known, known, if_false]
    rfl

theorem bufferOf_append (tasks : List UpgradeTask) (task : UpgradeTask) :
    bufferOf (tasks ++ [task]) task.dependency.path =
      ⟨task.dependency.path, seedOf (tasksOf task.dependency.path tasks ++ [task]),
        (stepAfter tasks task).left⟩ := by
  simp only [bufferOf, tasksOf_append_of_eq, textAfter, sweep_append]
  rfl

theorem stepsAfter_append (earlier tasks : List UpgradeTask) (task : UpgradeTask) :
    stepsAfter earlier (tasks ++ [task]) =
      stepsAfter earlier tasks ++ [stepAfter (earlier ++ tasks) task] := by
  induction tasks generalizing earlier with
  | nil => simp [stepsAfter]
  | cons first tasks ih => simp [stepsAfter, ih]

theorem stepsOf_append (tasks : List UpgradeTask) (task : UpgradeTask) :
    stepsOf (tasks ++ [task]) = stepsOf tasks ++ [stepAfter tasks task] :=
  stepsAfter_append [] tasks task

theorem bufferOf_append_of_ne (elsewhere : path ≠ task.dependency.path) :
    bufferOf (tasks ++ [task]) path = bufferOf tasks path := by
  simp only [bufferOf, tasksOf_append_of_ne (Ne.symm elsewhere)]

/-- What a task makes of the buffers that it finds, where its path has one. -/
theorem setCurrent_bufferOf (tasks : List UpgradeTask) (task : UpgradeTask) (paths : List String)
    (opened : task.dependency.path ∈ paths → task.dependency.path ∈ pathsOf tasks) :
    setCurrent task.dependency.path (stepAfter tasks task).left (paths.map (bufferOf tasks)) =
      paths.map (bufferOf (tasks ++ [task])) := by
  simp only [setCurrent, List.map_map]
  apply List.map_congr_left
  intro path member
  by_cases here : path = task.dependency.path
  · subst here
    have some : tasksOf task.dependency.path tasks ≠ [] :=
      fun none => tasksOf_eq_nil_iff.mp none (opened member)
    rw [bufferOf_append, seedOf_append some]
    simp [bufferOf]
  · rw [bufferOf_append_of_ne here]
    simp [bufferOf, here]

theorem changing_stepsOf_append (tasks : List UpgradeTask) (task : UpgradeTask) :
    ((stepsOf (tasks ++ [task])).filter Step.changes).map Step.task =
      if (stepAfter tasks task).left = (stepAfter tasks task).found then
        ((stepsOf tasks).filter Step.changes).map Step.task
      else ((stepsOf tasks).filter Step.changes).map Step.task ++ [task] := by
  rw [stepsOf_append, List.filter_append, List.map_append]
  by_cases same : (stepAfter tasks task).left = (stepAfter tasks task).found
  · simp [Step.changes, same]
  · simp [Step.changes, same]

/-- A batch after one more task. -/
theorem Batch.Follows.apply {batch : Batch} (follows : batch.Follows tasks) (task : UpgradeTask) :
    (batch.apply task).Follows (tasks ++ [task]) := by
  have found := found_stepAfter tasks task
  by_cases known : task.dependency.path ∈ pathsOf tasks
  · rw [if_pos known] at found
    have present := find?_bufferOf_of_mem known
    rw [← follows.buffers] at present
    constructor
    · have written : (batch.apply task).buffers = setCurrent task.dependency.path
          (patch (bufferOf tasks task.dependency.path).current task).content batch.buffers := by
        simp only [Batch.apply, present]
      have left : (patch (bufferOf tasks task.dependency.path).current task).content =
          (stepAfter tasks task).left := by
        rw [Step.left, found]
        rfl
      rw [written, left, follows.buffers, pathsOf_append_of_mem known]
      exact setCurrent_bufferOf tasks task _ fun _ => known
    · rw [changing_stepsOf_append, ← follows.applied, Step.left, found]
      simp only [Batch.apply, present]
      rfl
  · rw [if_neg known] at found
    have absent := find?_bufferOf_of_notMem known
    rw [← follows.buffers] at absent
    constructor
    · have written : (batch.apply task).buffers = setCurrent task.dependency.path
          (stepAfter tasks task).left (batch.buffers ++
            [⟨task.dependency.path, task.content.toList, task.content.toList⟩]) := by
        simp only [Batch.apply, absent, Step.left, found]
        rfl
      have others := setCurrent_bufferOf tasks task (pathsOf tasks) id
      have opened := bufferOf_append tasks task
      rw [tasksOf_eq_nil_iff.mpr known] at opened
      rw [written, pathsOf_append_of_notMem known, List.map_append, List.map_singleton, ← others,
        opened, follows.buffers]
      simp [setCurrent, seedOf]
    · rw [changing_stepsOf_append, ← follows.applied, Step.left, found]
      simp only [Batch.apply, absent]
      rfl

/-- All tasks applied, in order. -/
theorem follows_applyAll (tasks : List UpgradeTask) : (applyAll tasks).Follows tasks := by
  induction tasks using List.reverseRecOn with
  | nil => exact ⟨rfl, rfl⟩
  | append_singleton tasks task ih =>
    rw [applyAll, List.foldl_append]
    exact ih.apply task

/-- The changes of a batch are those of its files. -/
theorem changes_applyAll (tasks : List UpgradeTask) :
    (applyAll tasks).changes =
      (pathsOf tasks).filterMap fun path => change? path (tasksOf path tasks) := by
  rw [Batch.changes, (follows_applyAll tasks).buffers]
  induction pathsOf tasks with
  | nil => rfl
  | cons path paths ih =>
    by_cases same : textAfter (tasksOf path tasks) = seedOf (tasksOf path tasks)
    · simpa [change?, bufferOf, same] using ih
    · simpa [change?, bufferOf, same] using ih

theorem map_task_stepsAfter (earlier tasks : List UpgradeTask) :
    (stepsAfter earlier tasks).map Step.task = tasks := by
  induction tasks generalizing earlier with
  | nil => rfl
  | cons task tasks ih => simp [stepsAfter, ih]

theorem stepsFrom_append (content : List Char) (tasks : List UpgradeTask) (task : UpgradeTask) :
    stepsFrom content (tasks ++ [task]) =
      stepsFrom content tasks ++ [⟨task, (sweep content tasks).1⟩] := by
  induction tasks generalizing content with
  | nil => rfl
  | cons first tasks ih => simp [stepsFrom, sweep, ih]

/-- The tasks that a sweep lists are those whose steps changed something. -/
theorem changing_stepsFrom (content : List Char) (tasks : List UpgradeTask) :
    ((stepsFrom content tasks).filter Step.changes).map Step.task = (sweep content tasks).2 := by
  induction tasks generalizing content with
  | nil => rfl
  | cons task tasks ih =>
    by_cases same : (patch content task).content = content
    · have kept := ih content
      simpa [stepsFrom, sweep, Step.changes, Step.left, same] using kept
    · simp [stepsFrom, sweep, Step.changes, Step.left, same, ih]

/-- The steps of the tasks of one path are those that they would make alone. -/
theorem stepsOf_path (path : String) (tasks : List UpgradeTask) :
    (stepsOf tasks).filter (·.task.dependency.path = path) =
      stepsFrom (seedOf (tasksOf path tasks)) (tasksOf path tasks) := by
  induction tasks using List.reverseRecOn with
  | nil => rfl
  | append_singleton tasks task ih =>
    rw [stepsOf_append, List.filter_append, ih]
    by_cases here : task.dependency.path = path
    · subst here
      rw [tasksOf_append_of_eq rfl, stepsFrom_append]
      cases own : tasksOf task.dependency.path tasks with
      | nil => simp [stepsFrom, stepAfter, own]
      | cons first others => simp [stepAfter, own, seedOf]
    · rw [tasksOf_append_of_ne here]
      simp [here]

variable {seed : List Char}

theorem tasksOf_eq_self (here : ∀ task ∈ tasks, task.dependency.path = path) :
    tasksOf path tasks = tasks :=
  List.filter_eq_self.mpr fun task member => decide_eq_true (here task member)

theorem seedOf_eq (known : tasks ≠ []) (seeded : ∀ task ∈ tasks, task.content.toList = seed) :
    seedOf tasks = seed := by
  cases tasks with
  | nil => exact absurd rfl known
  | cons task tasks => exact seeded task List.mem_cons_self

/-- The tasks of one file are applied as its sweep tells. -/
theorem applied_eq_sweep (here : ∀ task ∈ tasks, task.dependency.path = path)
    (seeded : ∀ task ∈ tasks, task.content.toList = seed) :
    (applyAll tasks).applied = (sweep seed tasks).2 := by
  have alone : (stepsOf tasks).filter (·.task.dependency.path = path) = stepsOf tasks := by
    apply List.filter_eq_self.mpr
    intro step member
    have inside : step.task ∈ tasks := map_task_stepsAfter [] tasks ▸ List.mem_map_of_mem member
    exact decide_eq_true (here step.task inside)
  rw [stepsOf_path, tasksOf_eq_self here] at alone
  rw [(follows_applyAll tasks).applied, ← alone, changing_stepsFrom]
  cases tasks with
  | nil => rfl
  | cons task tasks => rw [seedOf_eq (List.cons_ne_nil _ _) seeded]

/-- The tasks of one file change that file or nothing. -/
theorem changes_eq_sweep (here : ∀ task ∈ tasks, task.dependency.path = path)
    (seeded : ∀ task ∈ tasks, task.content.toList = seed) :
    (applyAll tasks).changes =
      if (sweep seed tasks).1 = seed then []
      else [{ path := path, content := String.ofList (sweep seed tasks).1 }] := by
  cases tasks with
  | nil => simp [changes_applyAll, pathsOf, sweep]
  | cons task tasks =>
    have single : pathsOf (task :: tasks) = [path] := by
      have others : (tasks.map (·.dependency.path)).filter (fun other => !other == path) = [] := by
        apply List.filter_eq_nil_iff.mpr
        intro other member
        obtain ⟨known, inside, rfl⟩ := List.mem_map.mp member
        simp [here known (List.mem_cons_of_mem _ inside)]
      rw [pathsOf, List.map_cons, List.eraseDups_cons, here task List.mem_cons_self, others]
      rfl
    have start := seedOf_eq (List.cons_ne_nil task tasks) seeded
    rw [changes_applyAll, single, List.filterMap_cons, tasksOf_eq_self here, change?, textAfter, start]
    by_cases same : (sweep seed (task :: tasks)).1 = seed
    · simp [same]
    · simp [same]

end InfraPins.Patch
