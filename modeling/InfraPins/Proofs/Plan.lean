import InfraPins.Proofs.Result
import InfraPins.Upgrade.Plan

namespace InfraPins.Plan

/-- The tags of a source are among those that were answered. -/
theorem Answers.exists_mem_of_mem_tags {answers : Answers} {source : String} {tag : Datum}
    (member : tag ∈ answers.tags source) : ∃ answer ∈ answers, tag ∈ answer.2 := by
  unfold Answers.tags at member
  cases found : answers.lookup source with
  | none =>
    rw [found] at member
    cases member
  | some tags =>
    rw [found] at member
    obtain ⟨front, back, rfl, _⟩ := List.lookup_eq_some_iff.mp found
    exact ⟨(source, tags), by simp, member⟩

/-- An upgrade goes to the first tag, and that is another version. -/
theorem upgrade?_eq_some {current version : String} {tags : List Datum}
    (found : upgrade? current tags = .ok (some version)) :
    tags.head? = some (.text version) ∧ version ≠ current := by
  cases tags with
  | nil => cases found
  | cons latest tags =>
    simp only [upgrade?] at found
    split at found
    · cases found
    · rename_i other
      obtain ⟨newer, _, given⟩ := Result.bind_eq_ok.mp found
      cases newer with
      | false => cases given
      | true =>
        simp only [if_true] at given
        split at given
        · cases given
          exact ⟨rfl, fun same => other (by rw [same])⟩
        · cases given

/-- An upgrade goes to a version that is strictly newer. -/
theorem isNewer_of_upgrade? {current version : String} {tags : List Datum}
    (found : upgrade? current tags = .ok (some version)) :
    Version.isNewer current.toList version.toList = .ok true := by
  obtain ⟨first, _⟩ := upgrade?_eq_some found
  obtain ⟨rest, rfl⟩ := List.head?_eq_some_iff.mp first
  simp only [upgrade?] at found
  split at found
  · cases found
  · obtain ⟨newer, told, given⟩ := Result.bind_eq_ok.mp found
    cases newer with
    | false => cases given
    | true => exact Result.mapError_eq_ok.mp told

theorem mem_tasks {answers : Answers} {scanned : List ScanResult} {tasks : List UpgradeTask}
    (planned : Plan.tasks answers scanned = .ok tasks) {task : UpgradeTask}
    (member : task ∈ tasks) :
    ∃ result ∈ scanned, task.dependency = result.dependency ∧ task.content = result.content ∧
      upgrade? task.dependency.current (answers.tags task.dependency.source) =
        .ok (some task.newVersion) := by
  obtain ⟨options, found, same⟩ := Result.bind_eq_ok.mp planned
  obtain rfl := Except.ok.inj same
  obtain ⟨option, inside, rfl⟩ := List.mem_filterMap.mp member
  obtain ⟨result, present, here⟩ := Result.mem_of_mapM_eq_ok found inside
  obtain ⟨version, decided, given⟩ := Result.bind_eq_ok.mp here
  obtain ⟨text, rfl, rfl⟩ := Option.map_eq_some_iff.mp (Except.ok.inj given)
  exact ⟨result, present, rfl, rfl, decided⟩

end InfraPins.Plan
