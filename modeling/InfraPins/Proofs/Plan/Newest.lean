import InfraPins.Proofs.Plan
import InfraPins.Proofs.Update.Reading
import InfraPins.Proofs.Version.Tags

namespace InfraPins.Plan

open Version

variable {σ : Type}

/-- The upgrades of scan results, with some way to find the tags of a source. -/
def upgrades (resolve : String → Act σ (List Datum)) (scanned : List ScanResult) :
    Act σ (List UpgradeTask) := do
  let answers ← askAll resolve [] scanned
  Act.lift (tasks answers scanned)

/-- Finding the tags of a source, from a valid state, brings the tags that are listed for it and leaves
a valid state. -/
def Resolves (valid : σ → Prop) (lists : String → List Datum)
    (resolve : String → Act σ (List Datum)) : Prop :=
  ∀ source state, valid state →
    (resolve source state).result = .ok (lists source) ∧ valid (resolve source state).state

/-- An operation succeeds from every valid state, with a good value, and leaves a valid state. -/
def Succeeds (valid : σ → Prop) {α : Type} (act : Act σ α) (good : α → Prop) : Prop :=
  ∀ state, valid state →
    (∃ value, (act state).result = .ok value ∧ good value) ∧ valid (act state).state

theorem Succeeds.rules (valid : σ → Prop) :
    Rules fun {α} (act : Act σ α) good => Succeeds valid act good where
  pure := fun holds state kept => ⟨⟨_, rfl, holds⟩, kept⟩
  bind := by
    intro α β first next middle good head rest state kept
    obtain ⟨⟨value, came, here⟩, kept'⟩ := head state kept
    rw [Act.bind_apply]
    generalize first state = outcome at came kept'
    obtain ⟨result, events, left⟩ := outcome
    obtain rfl : result = .ok value := came
    exact rest value here left kept'

theorem upgrades_result {valid : σ → Prop} {lists : String → List Datum}
    {resolve : String → Act σ (List Datum)} (resolves : Resolves valid lists resolve) {start : σ}
    (kept : valid start) (scanned : List ScanResult) :
    ∃ answers : Answers, answers.Covers (fun source tags => tags = lists source) scanned ∧
      (upgrades resolve scanned start).result = tasks answers scanned := by
  have asks (source : String) : Succeeds valid (resolve source) (· = lists source) :=
    fun state kept => ⟨⟨_, (resolves source state kept).1, rfl⟩, (resolves source state kept).2⟩
  obtain ⟨⟨answers, came, covers⟩, _⟩ :=
    askAll_goes (Succeeds.rules valid) (fun source tags => tags = lists source) asks start kept
  refine ⟨answers, covers, ?_⟩
  unfold upgrades
  rw [Act.bind_apply]
  generalize askAll resolve [] scanned start = outcome at came
  obtain ⟨result, events, left⟩ := outcome
  obtain rfl : result = .ok answers := came
  rfl

variable {answers : Answers} {scanned : List ScanResult} {found : List UpgradeTask}
  {result : ScanResult}

/-- A scan result is upgraded exactly if there is a version to upgrade it to. -/
theorem exists_task_iff (planned : tasks answers scanned = .ok found) (member : result ∈ scanned) :
    (∃ task ∈ found, task.dependency = result.dependency ∧ task.content = result.content) ↔
      ∃ version, upgrade? result.dependency.current (answers.tags result.dependency.source) =
        .ok (some version) := by
  constructor
  · rintro ⟨task, inside, dependency, _⟩
    obtain ⟨_, _, _, _, decided⟩ := mem_tasks planned inside
    exact ⟨task.newVersion, dependency ▸ decided⟩
  · rintro ⟨version, decided⟩
    obtain ⟨options, mapped, same⟩ := Result.bind_eq_ok.mp planned
    obtain rfl := Except.ok.inj same
    obtain ⟨option, inside, told⟩ :=
      Result.exists_of_mem_left (Result.mapM_eq_ok.mp mapped) member
    have task : task? answers result = .ok (some ⟨result.dependency, version, result.content⟩) := by
      simp only [task?, decided]
      rfl
    obtain rfl := Except.ok.inj (task.symm.trans told)
    exact ⟨_, List.mem_filterMap.mpr ⟨_, inside, rfl⟩, rfl, rfl⟩

/-- The upgrade goes to the first tag if that is newer. -/
theorem upgrade?_text {current head : String} {rest : List Datum} {newer : Bool}
    (told : isNewer current.toList head.toList = .ok newer) (irreflexive : head = current → newer = false) :
    upgrade? current (.text head :: rest) = .ok (if newer then some head else none) := by
  unfold upgrade?
  by_cases same : head = current
  · simp [same, irreflexive same]
  · simp only [Datum.text.injEq, same, if_false, isNewerTag_text_eq_ok.mpr told]
    cases newer <;> rfl

def AllVersions (tags : List String) : Prop :=
  ∀ tag ∈ tags, Legible tag.toList ∧ isSemanticLike tag.toList = .ok true

instance (tags : List String) : Decidable (AllVersions tags) :=
  inferInstanceAs (Decidable (∀ tag ∈ tags, Legible tag.toList ∧ isSemanticLike tag.toList = .ok true))

/-- What a plan does about a scan result: it is upgraded exactly if a tag is newer than its version, and
then to a tag that no other is above. -/
def UpgradesToNewest (tags : List String) (result : ScanResult) (found : List UpgradeTask) : Prop :=
  ((∃ task ∈ found, task.dependency = result.dependency ∧ task.content = result.content) ↔
    ∃ tag ∈ tags, isNewer result.dependency.current.toList tag.toList = .ok true) ∧
  ∀ task ∈ found, task.dependency = result.dependency →
    task.newVersion ∈ tags ∧ ∀ tag ∈ tags, ∃ order,
      Version.compare tag.toList task.newVersion.toList = .ok order ∧ order ≠ .gt

theorem isNewer_newest {tags : List String} {current head tag : String}
    (versions : AllVersions (current :: tags)) (first : head ∈ tags) (member : tag ∈ tags)
    (newest : isNewer head.toList tag.toList = .ok false)
    (newer : isNewer current.toList tag.toList = .ok true) :
    isNewer current.toList head.toList = .ok true := by
  have legible : ∀ tag ∈ current :: tags, Legible tag.toList := fun tag member =>
    (versions tag member).1
  have here := legible current List.mem_cons_self
  have there := legible head (List.mem_cons_of_mem _ first)
  have beyond := legible tag (List.mem_cons_of_mem _ member)
  have coherent : Coherent (current :: tags) :=
    coherent_of_versions fun tag member => (versions tag member).2
  rw [isNewer_eq_true_iff here there]
  by_contra older
  exact coherent.not_newer_trans legible (List.mem_cons_of_mem _ member)
    (List.mem_cons_of_mem _ first) List.mem_cons_self
    ((isNewer_eq_false_iff there beyond).mp newest) older ((isNewer_eq_true_iff here beyond).mp newer)

theorem upgrade?_eq_some_iff {tags sorted : List String} {current version : String}
    (versions : AllVersions (current :: tags)) (newestFirst : NewestFirst tags sorted) :
    upgrade? current (sorted.map .text) = .ok (some version) ↔
      sorted.head? = some version ∧
        ∃ tag ∈ tags, isNewer current.toList tag.toList = .ok true := by
  cases sorted with
  | nil => simp [upgrade?]
  | cons head rest =>
    have first : head ∈ tags := newestFirst.perm.mem_iff.mp List.mem_cons_self
    have here := (versions current List.mem_cons_self).1
    have there := (versions head (List.mem_cons_of_mem _ first)).1
    obtain ⟨newer, told⟩ := isNewer_of_legible here there
    have irreflexive (same : head = current) : newer = false := by
      subst same
      exact Except.ok.inj (told.symm.trans (isNewer_self here))
    rw [List.map_cons, upgrade?_text told irreflexive]
    have exactly : newer = true ↔ ∃ tag ∈ tags, isNewer current.toList tag.toList = .ok true := by
      constructor
      · rintro rfl
        exact ⟨head, first, told⟩
      · rintro ⟨tag, member, ahead⟩
        have newest : isNewer head.toList tag.toList = .ok false :=
          newestFirst.head_newest (fun tag member => (versions tag (List.mem_cons_of_mem _ member)).1)
            member
        exact Except.ok.inj (told.symm.trans (isNewer_newest versions first member newest ahead))
    rw [← exactly]
    cases newer <;> simp

theorem exists_version {text : List Char} (legible : Legible text)
    (semantic : isSemanticLike text = .ok true) : ∃ version, version? text = some version := by
  rw [legible.isSemanticLike_eq, Except.ok.injEq] at semantic
  exact Option.isSome_iff_exists.mp semantic

/-- A plan upgrades a dependency of a version to the newest tag of its source. -/
theorem upgradesToNewest {tags sorted : List String} (newestFirst : NewestFirst tags sorted)
    (versions : AllVersions (result.dependency.current :: tags))
    (planned : tasks answers scanned = .ok found) (member : result ∈ scanned)
    (listed : answers.tags result.dependency.source = sorted.map .text) :
    UpgradesToNewest tags result found := by
  constructor
  · rw [exists_task_iff planned member, listed]
    simp only [upgrade?_eq_some_iff versions newestFirst]
    constructor
    · rintro ⟨_, _, newer⟩
      exact newer
    · rintro ⟨tag, inside, newer⟩
      have present : sorted ≠ [] := by
        rintro rfl
        cases newestFirst.perm.mem_iff.mpr inside
      exact ⟨sorted.head present, List.head?_eq_some_head present, tag, inside, newer⟩
  · intro task inside same
    obtain ⟨_, _, _, _, decided⟩ := mem_tasks planned inside
    rw [same, listed, upgrade?_eq_some_iff versions newestFirst] at decided
    obtain ⟨rest, rfl⟩ := List.head?_eq_some_iff.mp decided.1
    have first : task.newVersion ∈ tags := newestFirst.perm.mem_iff.mp List.mem_cons_self
    refine ⟨first, fun tag member => ?_⟩
    have here := versions _ (List.mem_cons_of_mem _ first)
    have there := versions _ (List.mem_cons_of_mem _ member)
    obtain ⟨version, is⟩ := exists_version here.1 here.2
    obtain ⟨version', is'⟩ := exists_version there.1 there.2
    obtain ⟨newer, told, exactly⟩ := isNewer_iff_compare here.1 there.1 is is'
    have newest := newestFirst.head_newest
      (fun tag member => (versions tag (List.mem_cons_of_mem _ member)).1) member
    obtain rfl := Except.ok.inj (told.symm.trans newest)
    refine ⟨_, compare_eq_ok there.1 here.1 is' is, fun above => ?_⟩
    cases exactly.mpr (by rw [compare_eq_ok there.1 here.1 is' is, above])

/-- The newest tag wins. Versions are sorted newest first, each once, and those of equal precedence in
the order in which they came; and where the tags of a source are such a list, a plan upgrades its
dependencies to the first of them, if one of them is newer than the current version. -/
theorem newest_tag_wins (tags : List String) (versions : AllVersions tags) :
    ∃ sorted : List String, sortTags (tags.map .text) = .ok (sorted.map .text) ∧
      sorted.Perm tags ∧
      (sorted.Pairwise fun earlier later => isNewer earlier.toList later.toList = .ok false) ∧
      (∀ tag ∈ tags,
        sorted.filter (fun other => Version.compare other.toList tag.toList = .ok .eq) =
          tags.filter fun other => Version.compare other.toList tag.toList = .ok .eq) ∧
      ∀ (σ : Type) (valid : σ → Prop) (lists : String → List Datum)
        (resolve : String → Act σ (List Datum)) (start : σ) (scanned : List ScanResult),
        Resolves valid lists resolve → valid start →
        (Update.AllLegible scanned →
          (∀ result ∈ scanned, Update.LegibleTags (lists result.dependency.source)) →
          ∃ found, (upgrades resolve scanned start).result = .ok found) ∧
        ∀ found, (upgrades resolve scanned start).result = .ok found → ∀ result ∈ scanned,
          AllVersions [result.dependency.current] →
          lists result.dependency.source = sorted.map .text → UpgradesToNewest tags result found := by
  have legible : ∀ tag ∈ tags, Legible tag.toList := fun tag member => (versions tag member).1
  have coherent : Coherent tags := coherent_of_versions fun tag member => (versions tag member).2
  obtain ⟨sorted, found, newestFirst⟩ := coherent.sortTags_eq_ok legible
  refine ⟨sorted, found, newestFirst.perm, newestFirst.ordered, fun tag member => ?_, ?_⟩
  · refine newestFirst.stable _ fun first here second there level level' => ?_
    obtain ⟨version, is⟩ := exists_version (versions first here).1 (versions first here).2
    obtain ⟨version', is'⟩ := exists_version (versions second there).1 (versions second there).2
    obtain ⟨version'', is''⟩ := exists_version (versions tag member).1 (versions tag member).2
    exact isNewer_of_compare_eq (legible first here) (legible second there) (legible tag member)
      is is' is'' (of_decide_eq_true level) (of_decide_eq_true level')
  · intro σ valid lists resolve start scanned resolves kept
    obtain ⟨answers, covers, same⟩ := upgrades_result resolves kept scanned
    rw [same]
    constructor
    · intro readable listed
      refine Update.tasks_of_legible (fun result member => ?_) readable
      rw [covers.tags member]
      exact listed result member
    · intro found planned result member current listed
      refine upgradesToNewest newestFirst ?_ planned member ((covers.tags member).trans listed)
      exact List.forall_mem_cons.mpr ⟨current _ (List.mem_singleton_self _), versions⟩

def pinned : ScanResult :=
  ⟨⟨"network", "git::https://host.example/modules/network.git", "1.2.5", "main.tf", 2, .module⟩, ""⟩

/-- Two spellings of one version keep their order behind a newer pre-release, and the plan goes to
that. -/
theorem newest_tag_wins_sample :
    AllVersions ["1.2", "v1.3.0-rc", "v1.2.0"] ∧ ∃ found,
      (upgrades (fun _ => pure (["v1.3.0-rc", "1.2", "v1.2.0"].map .text)) [pinned] ()).result =
        .ok found ∧ UpgradesToNewest ["1.2", "v1.3.0-rc", "v1.2.0"] pinned found := by
  have versions : AllVersions ["1.2", "v1.3.0-rc", "v1.2.0"] := by decide
  obtain ⟨sorted, found, _, _, _, plans⟩ := newest_tag_wins _ versions
  have order : sortTags (["1.2", "v1.3.0-rc", "v1.2.0"].map .text) =
      .ok (["v1.3.0-rc", "1.2", "v1.2.0"].map .text) := by decide
  have same := Except.ok.inj (order.symm.trans found)
  let listed : List Datum := ["v1.3.0-rc", "1.2", "v1.2.0"].map .text
  have resolves : Resolves (fun _ => True) (fun _ => listed) fun _ => (pure listed : Act Unit _) :=
    fun _ _ _ => ⟨rfl, trivial⟩
  obtain ⟨succeeds, upgrade⟩ := plans Unit _ _ _ () [pinned] resolves trivial
  have readable : Update.AllLegible [pinned] := by
    simp only [Update.AllLegible, List.forall_mem_singleton]
    decide
  have texts : Update.LegibleTags listed := by
    simp only [Update.LegibleTags, listed, List.forall_mem_map]
    exact fun tag member => ⟨tag, rfl, (by decide : ∀ tag ∈ ["v1.3.0-rc", "1.2", "v1.2.0"],
      Legible tag.toList) tag member⟩
  obtain ⟨found, planned⟩ := succeeds readable fun _ _ => texts
  exact ⟨versions, found, planned, upgrade found planned pinned (List.mem_singleton_self _) (by decide)
    same⟩

end InfraPins.Plan
