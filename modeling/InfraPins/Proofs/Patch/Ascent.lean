import InfraPins.Proofs.Patch.Files
import InfraPins.Proofs.Patch.Splice
import InfraPins.Proofs.Version.Characters
import InfraPins.Proofs.Version.Precedence

/-! Ascent. A text has heights: the ranks of the versions that stand in it as whole words, from left to
right. An upgrade to a newer version puts a higher rank in the place of one of them, so that the heights
go up in the order of dictionaries. However many upgrades come after, a text that was changed is never
again what it was. -/

namespace InfraPins.Patch

open Text Version

/-- The height of a word of version characters, if it is a version. -/
def height? (word : List Char) : Option Rank :=
  (version? word).map rank

/-- The heights of the versions in a text, from left to right. -/
def heights (content : List Char) : List Rank :=
  (content.splitOnP fun c => !isVersionChar c).filterMap height?

variable {front back before after token content content' : List Char} {version version' : SemVer}

theorem heights_nil : heights [] = [] := by decide

/-- A character that no version goes on with stands between heights. -/
theorem heights_append_cons {c : Char} (apart : isVersionChar c = false) :
    heights (front ++ c :: back) = heights front ++ heights back := by
  rw [heights, List.splitOnP_append_cons _ _ (by simp [apart]), List.filterMap_append]
  rfl

/-- Where no version goes on from one text to the next, their heights stand one after another. -/
theorem heights_append
    (apart : front.getLast?.any isVersionChar = false ∨ back.head?.any isVersionChar = false) :
    heights (front ++ back) = heights front ++ heights back := by
  rcases apart with ended | begun
  · rcases List.eq_nil_or_concat front with rfl | ⟨front, c, rfl⟩
    · rw [heights_nil]
      rfl
    · have apart : isVersionChar c = false := by simpa using ended
      rw [List.concat_eq_append, List.append_assoc, List.singleton_append, heights_append_cons apart,
        heights_append_cons apart, heights_nil, List.append_nil]
  · cases back with
    | nil => rw [heights_nil, List.append_nil, List.append_nil]
    | cons c back =>
      have apart : isVersionChar c = false := begun
      have alone : heights (c :: back) = heights back := by
        rw [← List.nil_append (c :: back), heights_append_cons apart, heights_nil, List.nil_append]
      rw [heights_append_cons apart, alone]

theorem not_isVersionChar_of_isBlank {c : Char} (blank : isBlank c = true) :
    isVersionChar c = false :=
  @not_goes_on_of_endsRef (some c) (by simp [endsRef, blank])

/-- White space has no height. -/
theorem heights_of_blank (blank : ∀ c ∈ content, isBlank c = true) : heights content = [] := by
  induction content with
  | nil => exact heights_nil
  | cons c content ih =>
    obtain ⟨first, others⟩ := List.forall_mem_cons.mp blank
    rw [← List.nil_append (c :: content), heights_append_cons (not_isVersionChar_of_isBlank first),
      heights_nil, ih others, List.nil_append]

/-- A version is as high as its rank, with white space around it or without. -/
theorem heights_of_version (semantic : isSemanticLike token = .ok true)
    (is : version? token = some version) : heights token = [rank version] := by
  obtain ⟨lead, trail, split, blank, blank'⟩ := eq_trim token
  have core : heights (trim token) = [rank version] := by
    have word : ∀ c ∈ trim token, (!isVersionChar c) = false := by
      intro c member
      rw [isVersionChar_of_mem_trim semantic member]
      rfl
    rw [heights, List.splitOnP_eq_singleton word, List.filterMap_cons, height?, version?_trim, is]
    rfl
  have opened : lead.getLast?.any isVersionChar = false := by
    cases last : lead.getLast? with
    | none => rfl
    | some c => exact not_isVersionChar_of_isBlank (blank c (List.mem_of_getLast? last))
  have closed : trail.head?.any isVersionChar = false := by
    cases head : trail.head? with
    | none => rfl
    | some c => exact not_isVersionChar_of_isBlank (blank' c (List.mem_of_head? head))
  rw [split, List.append_assoc, heights_append (.inl opened), heights_append (.inr closed), core,
    heights_of_blank blank, heights_of_blank blank']
  rfl

/-- The height of a version that stands as a whole word. -/
theorem heights_around (begun : before.getLast?.any isVersionChar = false)
    (ended : after.head?.any isVersionChar = false) (semantic : isSemanticLike token = .ok true)
    (is : version? token = some version) :
    heights (before ++ token ++ after) = heights before ++ rank version :: heights after := by
  rw [List.append_assoc, heights_append (.inl begun), heights_append (.inr ended),
    heights_of_version semantic is, List.singleton_append]

/-- A task that goes from one version to another, and whose source has no `ref` of its own. -/
structure Versioned (task : UpgradeTask) : Prop where
  current : isSemanticLike task.dependency.current.toList = .ok true
  next : isSemanticLike task.newVersion.toList = .ok true
  plain : task.kind = .module → ¬ Source.refMark <:+: task.dependency.source.toList

/-- Such a task whose new version is strictly newer. -/
structure Rises (task : UpgradeTask) : Prop extends Versioned task where
  newer : isNewer task.dependency.current.toList task.newVersion.toList = .ok true

/-- What leads up to a version is not part of one. -/
theorem LeadsToVersion.begun {dependency : Dependency} (leads : LeadsToVersion dependency before) :
    before.getLast?.any isVersionChar = false := by
  have last : before.getLast? = some '=' ∨ before.getLast? = some ':' := by
    unfold LeadsToVersion at leads
    split at leads
    · left
      rcases leads with ⟨front, rfl⟩ | ⟨front, rfl⟩ <;>
        exact List.getLast?_append_of_ne_nil _ (by decide)
    · right
      obtain ⟨front, rfl⟩ := leads
      rw [← List.append_assoc, List.getLast?_concat]
  rcases last with last | last
  · rw [last]
    decide
  · rw [last]
    decide

variable {task : UpgradeTask} {tasks : List UpgradeTask}

/-- A splice to a newer version goes up. -/
theorem SplicesWhole.ascends (rises : Rises task)
    (spliced : SplicesWhole task.dependency task.newVersion.toList content content') :
    heights content < heights content' := by
  obtain ⟨before, after, rfl, rfl, leads, ended⟩ := spliced
  obtain ⟨version, version', is, is', above⟩ :=
    rank_lt_of_isNewer rises.current rises.next rises.newer
  rw [heights_around leads.begun ended rises.current is,
    heights_around leads.begun ended rises.next is']
  exact List.append_left_lt (List.cons_lt_cons_iff.mpr (.inl above))

/-- An upgrade leaves a text as it is, or goes up. -/
theorem patch_ascends (rises : Rises task) (content : List Char) :
    (patch content task).content = content ∨ heights content < heights (patch content task).content := by
  cases kind : task.kind with
  | image =>
    rw [patch, kind]
    exact (patchImage_splicesWhole kind).imp_right (SplicesWhole.ascends rises)
  | module =>
    rw [patch, kind]
    exact (patchModule_splicesWhole kind (rises.plain kind)).imp And.left
      (SplicesWhole.ascends rises)

/-- Tasks that change a text at all leave it higher than it was. -/
theorem sweep_ascends (rises : ∀ task ∈ tasks, Rises task) (content : List Char) :
    heights content ≤ heights (sweep content tasks).1 ∧
      ((sweep content tasks).2 ≠ [] → heights content < heights (sweep content tasks).1) := by
  induction tasks generalizing content with
  | nil => exact ⟨le_rfl, fun changed => absurd rfl changed⟩
  | cons task tasks ih =>
    obtain ⟨first, others⟩ := List.forall_mem_cons.mp rises
    obtain ⟨onward, changes⟩ := ih others (patch content task).content
    rcases patch_ascends first content with same | above
    · rw [same] at onward changes
      simpa [sweep, same] using ⟨onward, changes⟩
    · have higher := above.trans_le onward
      exact ⟨higher.le, fun _ => higher⟩

/-- Tasks of which none changes a text leave it as it is. -/
theorem sweep_of_idle (idle : (sweep content tasks).2 = []) : (sweep content tasks).1 = content := by
  induction tasks generalizing content with
  | nil => rfl
  | cons task tasks ih =>
    by_cases same : (patch content task).content = content
    · simp only [sweep, same, if_true] at idle ⊢
      exact ih idle
    · simp [sweep, same] at idle

/-- A task whose file is among those that are changed, and is not what the tasks found. -/
def HasEdit (tasks : List UpgradeTask) (changes : List FileChange) (task : UpgradeTask) : Prop :=
  ∃ change ∈ changes, change.path = task.dependency.path ∧
    change.content.toList ≠ seedOf (tasksOf task.dependency.path tasks)

theorem hasEdit_of_applied (rises : ∀ task ∈ tasks, Rises task)
    (applied : task ∈ (applyAll tasks).applied) : HasEdit tasks (applyAll tasks).changes task := by
  have own : ∀ other ∈ tasksOf task.dependency.path tasks, Rises other :=
    fun other member => rises other (List.mem_filter.mp member).1
  have turn : task ∈ tasksOf task.dependency.path (applyAll tasks).applied :=
    List.mem_filter.mpr ⟨applied, decide_eq_true rfl⟩
  rw [applied_of_path] at turn
  have higher := (sweep_ascends own _).2 (List.ne_nil_of_mem turn)
  have different : textAfter (tasksOf task.dependency.path tasks) ≠
      seedOf (tasksOf task.dependency.path tasks) := by
    intro same
    rw [textAfter] at same
    rw [same] at higher
    exact lt_irrefl _ higher
  cases changed : change? task.dependency.path (tasksOf task.dependency.path tasks) with
  | none => simp [change?, different] at changed
  | some change =>
    have listed : change ∈ (applyAll tasks).changes.filter (·.path = task.dependency.path) := by
      rw [changes_of_path, changed]
      exact List.mem_singleton_self change
    have content : change.content.toList = textAfter (tasksOf task.dependency.path tasks) := by
      obtain rfl := Option.some.inj ((if_neg different).symm.trans changed)
      exact String.toList_ofList
    exact ⟨change, (List.mem_filter.mp listed).1, path_of_change? changed, content ▸ different⟩

theorem changes_of_idle (idle : (applyAll tasks).applied = []) : (applyAll tasks).changes = [] := by
  rw [changes_applyAll, List.filterMap_eq_nil_iff]
  intro path _
  have turns := applied_of_path path tasks
  rw [idle] at turns
  exact if_pos (sweep_of_idle turns.symm)

end InfraPins.Patch
