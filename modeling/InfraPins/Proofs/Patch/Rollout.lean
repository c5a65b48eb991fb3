import InfraPins.Proofs.Patch.Batch
import InfraPins.Proofs.Patch.Layout

namespace InfraPins.Patch

open Text

/-- The slots that are upgraded, and the version that each source goes to. -/
structure Rollout (kind : DependencyKind) where
  planned : Slot kind → Bool
  target : List Char → List Char
  pinned : ∀ source, ∀ c ∈ target source, isVersionChar c
  moves : ∀ slot, planned slot → slot.version ≠ target slot.source

namespace Rollout

variable {kind : DependencyKind}

def upgrade (rollout : Rollout kind) (slot : Slot kind) : Slot kind :=
  if rollout.planned slot then
    ⟨slot.source, rollout.target slot.source, slot.named, rollout.pinned slot.source⟩
  else slot

/-- Free text that no task of the rollout can take for its slot: for modules it holds no `ref=`, for
images no planned reference stands whole in it. -/
def Clear (rollout : Rollout kind) (layout : Layout kind) : Prop :=
  match kind with
  | .module => ∀ segment ∈ layout.segments, ¬ Source.refKey <:+: segment
  | .image => ∀ slot ∈ layout.slots, rollout.planned slot →
      ∀ segment ∈ layout.segments, ¬ StandsWhole slot.reference segment

/-- The source and the current version that a task names. -/
def pin (task : UpgradeTask) : List Char × List Char :=
  (task.dependency.source.toList, task.dependency.current.toList)

/-- One task for each planned slot of the text of a file, in any order. -/
structure Covers (rollout : Rollout kind) (layout : Layout kind) (path : String)
    (tasks : List UpgradeTask) : Prop where
  kind : ∀ task ∈ tasks, task.kind = kind
  path : ∀ task ∈ tasks, task.dependency.path = path
  content : ∀ task ∈ tasks, task.content.toList = layout.text
  target : ∀ task ∈ tasks,
    task.newVersion.toList = rollout.target task.dependency.source.toList
  slots : (tasks.map pin).Perm
    ((layout.slots.filter rollout.planned).map fun slot => (slot.source, slot.version))

theorem upgrade_source (rollout : Rollout kind) (slot : Slot kind) :
    (rollout.upgrade slot).source = slot.source := by
  unfold upgrade
  split <;> rfl

theorem upgrade_version_of_planned (rollout : Rollout kind) {slot : Slot kind}
    (planned : rollout.planned slot) :
    (rollout.upgrade slot).version = rollout.target slot.source := by
  simp [upgrade, planned]

theorem upgrade_ne_of_planned (rollout : Rollout kind) {slot : Slot kind}
    (planned : rollout.planned slot) : rollout.upgrade slot ≠ slot := by
  intro same
  apply rollout.moves slot planned
  rw [← rollout.upgrade_version_of_planned planned, same]

theorem not_planned_upgrade (rollout : Rollout kind) (slot : Slot kind) :
    rollout.planned (rollout.upgrade slot) = false := by
  cases planned : rollout.planned slot with
  | false => simp [upgrade, planned]
  | true =>
    rw [Bool.eq_false_iff]
    intro again
    apply rollout.moves _ again
    rw [rollout.upgrade_version_of_planned planned, rollout.upgrade_source]

theorem upgrade_upgrade (rollout : Rollout kind) (slot : Slot kind) :
    rollout.upgrade (rollout.upgrade slot) = rollout.upgrade slot := by
  rw [upgrade, rollout.not_planned_upgrade slot]
  rfl

theorem not_standsWhole_of_clear {rollout : Rollout kind} {layout : Layout kind}
    (clear : rollout.Clear layout) {slot : Slot kind} (member : slot ∈ layout.slots)
    (planned : rollout.planned slot) :
    ∀ segment ∈ layout.segments, ¬ StandsWhole slot.reference segment := by
  cases kind with
  | module =>
    rintro segment inside ⟨before, after, rfl, _⟩
    apply clear _ inside
    refine ⟨before ++ slot.source ++ ['?'], slot.version ++ after, ?_⟩
    simp [Slot.reference, joint, Source.refMark]
  | image => exact clear slot member planned

/-- Free text stays clear when a slot gives way to one that is not planned. -/
theorem Clear.replace {rollout : Rollout kind} {layout : Layout kind} (clear : rollout.Clear layout)
    {slot renewed : Slot kind} {segment : List Char} {front back : List (Slot kind × List Char)}
    (split : layout.tail = front ++ (slot, segment) :: back)
    (unplanned : rollout.planned renewed = false) :
    rollout.Clear { layout with tail := front ++ (renewed, segment) :: back } := by
  cases kind with
  | module =>
    intro text inside
    apply clear text
    simpa [Layout.segments, split] using inside
  | image =>
    intro other member planned text inside
    apply clear other ?_ planned text
    · simpa [Layout.segments, split] using inside
    · simp only [Layout.slots, split, List.map_append, List.map_cons, List.mem_append,
        List.mem_cons] at member ⊢
      rcases member with member | rfl | member
      · exact .inl member
      · simp [unplanned] at planned
      · exact .inr (.inr member)

private theorem map_upgrade_of_none_planned {rollout : Rollout kind} {layout : Layout kind}
    (none : layout.slots.filter rollout.planned = []) : layout.map rollout.upgrade = layout := by
  obtain ⟨opening, tail⟩ := layout
  simp only [Layout.map, Layout.mk.injEq, true_and]
  conv_rhs => rw [← List.map_id tail]
  apply List.map_congr_left
  rintro ⟨slot, segment⟩ member
  have unplanned := List.filter_eq_nil_iff.mp none slot (List.mem_map_of_mem member)
  simp [upgrade, unplanned]

/-- Tasks for the planned slots of a layout upgrade each of them, whatever their order. -/
theorem sweep_text (rollout : Rollout kind) {layout : Layout kind} {tasks : List UpgradeTask}
    (kinds : ∀ task ∈ tasks, task.kind = kind)
    (targets : ∀ task ∈ tasks,
      task.newVersion.toList = rollout.target task.dependency.source.toList)
    (clear : rollout.Clear layout)
    (pending : (tasks.map pin).Perm
      ((layout.slots.filter rollout.planned).map fun slot => (slot.source, slot.version))) :
    sweep layout.text tasks = ((layout.map rollout.upgrade).text, tasks) := by
  induction tasks generalizing layout with
  | nil =>
    have none := List.map_eq_nil_iff.mp (List.nil_perm.mp pending)
    rw [map_upgrade_of_none_planned none]
    rfl
  | cons task tasks ih =>
    -- The first slot that the task names is planned, and the task rewrites it.
    have named : pin task ∈ (layout.slots.filter rollout.planned).map
        fun slot => (slot.source, slot.version) := pending.subset (by simp)
    obtain ⟨slot, member, same⟩ := List.mem_map.mp named
    obtain ⟨present, planned⟩ := List.mem_filter.mp member
    obtain ⟨source, current⟩ := Prod.mk.inj same
    obtain ⟨before, after, cut, absent⟩ := List.eq_append_cons_of_mem present
    obtain ⟨front, rest, split, rfl, behind⟩ := List.map_eq_append_iff.mp cut
    obtain ⟨⟨other, segment⟩, back, rfl, rfl, rfl⟩ := List.map_eq_cons_iff.mp behind
    have unplanned := rollout.not_planned_upgrade other
    let next : Layout kind :=
      { layout with tail := front ++ (rollout.upgrade other, segment) :: back }
    have patched : patch layout.text task = ⟨next.text, some .whole⟩ :=
      Layout.patch_text split absent (not_standsWhole_of_clear clear present planned)
        (kinds task List.mem_cons_self) source.symm current.symm (rollout.upgrade_source other) (by
          rw [targets task List.mem_cons_self, rollout.upgrade_version_of_planned planned, ← source])
    -- The slot is no longer pending, and the layout is still on its way to the same end.
    have rest : sweep next.text tasks = ((next.map rollout.upgrade).text, tasks) := by
      refine ih (fun other member => kinds other (List.mem_cons_of_mem _ member))
        (fun other member => targets other (List.mem_cons_of_mem _ member))
        (clear.replace split unplanned) (List.Perm.cons_inv (a := pin task) (pending.trans ?_))
      simp [next, Layout.slots, split, planned, unplanned, ← source, ← current, pin]
    have changed : next.text ≠ layout.text := by
      intro same
      have tails := Layout.tailText_inj (by simp [next, Layout.frame, split, upgrade_source])
        (List.append_cancel_left same)
      rw [split] at tails
      have pairs := (List.cons_eq_cons.mp (List.append_cancel_left tails)).1
      exact rollout.upgrade_ne_of_planned planned (Prod.mk.inj pairs).1
    have onward : next.map rollout.upgrade = layout.map rollout.upgrade := by
      simp [next, Layout.map, split, upgrade_upgrade]
    rw [sweep, patched, rest, onward]
    simp [changed]

/-- The tasks of a rollout are all applied, in any order, and leave the text with its planned slots
upgraded and all else as it was. -/
theorem applyAll_of_covers (rollout : Rollout kind) (layout : Layout kind) (path : String)
    (tasks : List UpgradeTask) (clear : rollout.Clear layout)
    (covers : rollout.Covers layout path tasks) :
    (applyAll tasks).applied = tasks ∧
      (applyAll tasks).changes =
        if tasks = [] then []
        else [{ path := path, content := String.ofList (layout.map rollout.upgrade).text }] := by
  have swept := rollout.sweep_text covers.kind covers.target clear covers.slots
  rw [applied_eq_sweep covers.path covers.content, changes_eq_sweep covers.path covers.content,
    swept]
  refine ⟨rfl, ?_⟩
  cases tasks with
  | nil =>
    have none := List.map_eq_nil_iff.mp (List.nil_perm.mp covers.slots)
    simp [map_upgrade_of_none_planned none]
  | cons task tasks =>
    have named := covers.slots.subset (List.mem_map_of_mem List.mem_cons_self)
    obtain ⟨slot, member, _⟩ := List.mem_map.mp named
    obtain ⟨present, planned⟩ := List.mem_filter.mp member
    have changed : (layout.map rollout.upgrade).text ≠ layout.text := by
      intro same
      have tails := Layout.tailText_inj (by simp [Layout.frame, Layout.map, upgrade_source])
        (List.append_cancel_left same)
      obtain ⟨⟨_, segment⟩, inside, rfl⟩ := List.mem_map.mp present
      have pairs := List.map_inj_left.mp (tails.trans (List.map_id _).symm) _ inside
      exact rollout.upgrade_ne_of_planned planned (Prod.mk.inj pairs).1
    simp [changed]

private def sampleSlot (version : List Char) (pinned : version.all isVersionChar = true) :
    Slot .module where
  source := "git::https://h/vpc".toList
  version := version
  named := List.all_eq_true.mp (by decide)
  pinned := List.all_eq_true.mp pinned

/-- One source three times, at a version, at a longer one, and at the first again. -/
private def sampleLayout : Layout .module where
  opening := "a = ".toList
  tail := [
    (sampleSlot "v1".toList (by decide), "\nb = ".toList),
    (sampleSlot "v1.1".toList (by decide), "\nc = ".toList),
    (sampleSlot "v1".toList (by decide), "\n".toList)]

private def sampleRollout : Rollout .module where
  planned slot := slot.version = "v1".toList
  target _ := "v2".toList
  pinned _ := List.all_eq_true.mp (by decide)
  moves slot planned := by
    rw [decide_eq_true_iff] at planned
    rw [planned]
    decide

private def sampleTask (name : String) : UpgradeTask :=
  ⟨⟨name, "git::https://h/vpc", "v1", "main.tf", 1, .module⟩, "v2", String.ofList sampleLayout.text⟩

theorem applyAll_of_covers_sample :
    let tasks := [sampleTask "c", sampleTask "a"]
    let upgraded := "a = \"git::https://h/vpc?ref=v2\"\nb = \"git::https://h/vpc?ref=v1.1\"\n"
      ++ "c = \"git::https://h/vpc?ref=v2\"\n"
    (applyAll tasks).applied = tasks ∧
      (applyAll tasks).changes = [{ path := "main.tf", content := upgraded }] := by
  have whole := applyAll_of_covers sampleRollout sampleLayout "main.tf"
    [sampleTask "c", sampleTask "a"]
    (by
      simp only [Clear]
      decide)
    { kind := by decide
      path := by decide
      content := by simp [sampleTask]
      target := by decide
      slots := by decide }
  refine ⟨whole.1, whole.2.trans ?_⟩
  decide

end Rollout

end InfraPins.Patch
