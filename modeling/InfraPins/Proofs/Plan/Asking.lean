import InfraPins.Proofs.Plan
import InfraPins.Proofs.Plan.Newest

/-! Plans ask once for each source. Whatever finds the tags of a source is run for every distinct source,
in the order in which the sources first appear, and only then is anything decided; what is decided about
a scan result depends on the answer for its source alone. -/

namespace InfraPins.Plan

open Version

/-- The distinct sources of scan results, each where it first appears. -/
def sources : List ScanResult → List String
  | [] => []
  | result :: rest =>
    result.dependency.source :: (sources rest).filter (· ≠ result.dependency.source)

variable {answers : Answers} {scanned : List ScanResult} {result : ScanResult} {source : String}

theorem mem_sources_iff :
    source ∈ sources scanned ↔ ∃ result ∈ scanned, result.dependency.source = source := by
  induction scanned with
  | nil => simp [sources]
  | cons result scanned ih =>
    by_cases same : source = result.dependency.source
    · simp [sources, same]
    · simp [sources, same, Ne.symm same, ih]

theorem nodup_sources (scanned : List ScanResult) : (sources scanned).Nodup := by
  induction scanned with
  | nil => exact List.nodup_nil
  | cons result scanned ih =>
    refine List.nodup_cons.mpr ⟨fun member => ?_, ih.filter _⟩
    simpa using (List.mem_filter.mp member).2

section Asking

variable {m : Type → Type} [Monad m] [LawfulMonad m] (resolve : String → m (List Datum))

/-- The sources that are still to be asked for. -/
def unasked (answers : Answers) (scanned : List ScanResult) : List String :=
  (sources scanned).filter fun source => (answers.lookup source).isNone

theorem unasked_cons_of_known (known : (answers.lookup result.dependency.source).isSome = true) :
    unasked answers (result :: scanned) = unasked answers scanned := by
  have answered : (answers.lookup result.dependency.source).isNone = false := by simpa using known
  rw [unasked, sources, List.filter_cons_of_neg (by simp [answered]), List.filter_filter, unasked]
  refine List.filter_congr fun source _ => ?_
  by_cases same : source = result.dependency.source
  · simp [same, answered]
  · simp [same]

theorem unasked_cons_of_unknown (unknown : answers.lookup result.dependency.source = none) :
    unasked answers (result :: scanned) = result.dependency.source ::
      (unasked answers scanned).filter (· ≠ result.dependency.source) := by
  rw [unasked, sources, List.filter_cons_of_pos (by simp [unknown]), unasked, List.filter_filter,
    List.filter_filter]
  simp only [Bool.and_comm]

/-- A source that has been asked for is not asked for again. -/
theorem unasked_append (answers : Answers) (scanned : List ScanResult) (asked : String)
    (tags : List Datum) :
    unasked (answers ++ [(asked, tags)]) scanned = (unasked answers scanned).filter (· ≠ asked) := by
  rw [unasked, unasked, List.filter_filter]
  refine List.filter_congr fun source _ => ?_
  rw [List.lookup_append]
  by_cases same : source = asked
  · simp [same]
  · simp [same, List.lookup_cons, beq_false_of_ne same]

/-- Asking on from what was answered before asks for the other sources, one after the other. -/
theorem askAll_eq (answers : Answers) (scanned : List ScanResult) :
    askAll resolve answers scanned = do
      let replies ← (unasked answers scanned).mapM resolve
      return answers ++ (unasked answers scanned).zip replies := by
  induction scanned generalizing answers with
  | nil => simp [askAll, unasked, sources]
  | cons result scanned ih =>
    unfold askAll
    dsimp only
    split
    · rename_i known
      rw [ih, unasked_cons_of_known (by simp [known])]
    · rename_i unknown
      rw [unasked_cons_of_unknown unknown]
      simp only [ih, unasked_append, List.mapM_cons, bind_assoc, pure_bind, List.zip_cons_cons,
        List.append_assoc, List.singleton_append]

/-- Every distinct source is asked for once, in the order in which the sources first appear. -/
theorem askAll_nil_eq (scanned : List ScanResult) :
    askAll resolve [] scanned = do
      let replies ← (sources scanned).mapM resolve
      return (sources scanned).zip replies := by
  have all : unasked [] scanned = sources scanned := List.filter_eq_self.mpr fun _ _ => rfl
  rw [askAll_eq, all]
  rfl

end Asking

/-- Each source has the reply that it was asked for. -/
theorem map_tags_zip {keys : List String} {replies : List (List Datum)} (distinct : keys.Nodup)
    (same : replies.length = keys.length) :
    keys.map (Answers.tags (keys.zip replies)) = replies := by
  induction keys generalizing replies with
  | nil => exact (List.length_eq_zero_iff.mp same).symm
  | cons key keys ih =>
    obtain ⟨fresh, distinct⟩ := List.nodup_cons.mp distinct
    cases replies with
    | nil => cases same
    | cons reply replies =>
      have here : Answers.tags ((key :: keys).zip (reply :: replies)) key = reply := by
        simp [Answers.tags]
      have others : keys.map (Answers.tags ((key :: keys).zip (reply :: replies))) =
          keys.map (Answers.tags (keys.zip replies)) := by
        refine List.map_congr_left fun other member => ?_
        have different : other ≠ key := fun equal => fresh (equal ▸ member)
        simp [Answers.tags, List.lookup_cons, beq_false_of_ne different]
      rw [List.map_cons, here, others, ih distinct (Nat.succ.inj same)]

/-- The task of a scan result: its dependency goes to the first tag of its source, if that is newer. -/
def selected? (answers : Answers) (result : ScanResult) : Option UpgradeTask :=
  match answers.tags result.dependency.source with
  | .text head :: _ =>
    if isNewer result.dependency.current.toList head.toList = .ok true then
      some ⟨result.dependency, head, result.content⟩
    else none
  | _ => none

/-- The first tag of a scan result's source is its current version, or can be compared with it. -/
def IsComparable (answers : Answers) (result : ScanResult) : Prop :=
  ∀ head ∈ (answers.tags result.dependency.source).head?, head = .text result.dependency.current ∨
    ∃ newer, isNewerTag (.text result.dependency.current) head = .ok newer

theorem not_isNewer_self (text : List Char) : isNewer text text ≠ .ok true := fun newer =>
  (newer_of_isNewer newer).asymm (newer_of_isNewer newer)

/-- One version is above another: told to be newer, another one, and not older. -/
structure IsAbove (current version : String) : Prop where
  newer : isNewer current.toList version.toList = .ok true
  other : version ≠ current
  not_older : isNewer version.toList current.toList ≠ .ok true

theorem isAbove_of_isNewer {current version : String}
    (newer : isNewer current.toList version.toList = .ok true) : IsAbove current version := by
  refine ⟨newer, ?_, fun older => ?_⟩
  · rintro rfl
    exact not_isNewer_self _ newer
  · exact (newer_of_isNewer newer).asymm (newer_of_isNewer older)

/-- A scan result is decided about as its answer says. -/
theorem eq_selected? {task? : Option UpgradeTask} (decided : Plan.task? answers result = .ok task?) :
    task? = selected? answers result := by
  obtain ⟨version?, told, same⟩ := Result.bind_eq_ok.mp decided
  obtain rfl := Except.ok.inj same
  unfold selected?
  cases version? with
  | some version =>
    have newer := isNewer_of_upgrade? told
    obtain ⟨rest, listed⟩ := List.head?_eq_some_iff.mp (upgrade?_eq_some told).1
    simp [listed, newer]
  | none =>
    split
    · rename_i head rest listed
      have older : isNewer result.dependency.current.toList head.toList ≠ .ok true := by
        intro newer
        have different : head ≠ result.dependency.current := (isAbove_of_isNewer newer).other
        rw [listed, upgrade?_text newer fun same => absurd same different] at told
        cases told
      rw [if_neg older, Option.map_none]
    · rfl

/-- It can be told whether there is an upgrade exactly if the first tag can be compared. -/
theorem upgrade?_comes_iff {current : String} {tags : List Datum} :
    (∃ version?, upgrade? current tags = .ok version?) ↔ ∀ head ∈ tags.head?, head = .text current ∨
      ∃ newer, isNewerTag (.text current) head = .ok newer := by
  cases tags with
  | nil => exact ⟨fun _ => nofun, fun _ => ⟨none, rfl⟩⟩
  | cons head rest =>
    simp only [List.head?_cons, Option.mem_some_iff, forall_eq', upgrade?]
    by_cases same : head = .text current
    · simp [same]
    · simp only [same, if_false, false_or]
      constructor
      · rintro ⟨version?, told⟩
        obtain ⟨newer, compared, _⟩ := Result.bind_eq_ok.mp told
        exact ⟨newer, compared⟩
      · rintro ⟨newer, compared⟩
        rw [compared]
        cases newer with
        | false => exact ⟨none, rfl⟩
        | true => cases head <;> exact ⟨_, rfl⟩

/-- A scan result can be decided about exactly if its versions can be compared. -/
theorem task?_comes_iff :
    (∃ task?, Plan.task? answers result = .ok task?) ↔ IsComparable answers result := by
  unfold IsComparable
  rw [← upgrade?_comes_iff]
  constructor
  · rintro ⟨task?, decided⟩
    obtain ⟨version?, told, _⟩ := Result.bind_eq_ok.mp decided
    exact ⟨version?, told⟩
  · rintro ⟨version?, told⟩
    exact ⟨_, Result.bind_eq_ok.mpr ⟨version?, told, rfl⟩⟩

/-- What a plan decides: the tasks of the scan results that have one, in scan order, each to a version
above the current one; and scan results of one source and one version have the same lot. -/
structure Decides (answers : Answers) (scanned : List ScanResult) (found : List UpgradeTask) : Prop where
  selected : found = scanned.filterMap (selected? answers)
  above : ∀ task ∈ found, IsAbove task.dependency.current task.newVersion
  alike : ∀ first ∈ scanned, ∀ second ∈ scanned,
    first.dependency.source = second.dependency.source →
    first.dependency.current = second.dependency.current →
    ((∃ task ∈ found, task.dependency = first.dependency ∧ task.content = first.content) ↔
      ∃ task ∈ found, task.dependency = second.dependency ∧ task.content = second.content)

theorem eq_map_selected? {decisions : List (Option UpgradeTask)}
    (each : List.Forall₂ (fun result task? => Plan.task? answers result = .ok task?) scanned decisions) :
    decisions = scanned.map (selected? answers) := by
  induction each with
  | nil => rfl
  | cons here _ ih => rw [List.map_cons, ← ih, eq_selected? here]

theorem eq_filterMap_selected? {found : List UpgradeTask}
    (planned : tasks answers scanned = .ok found) : found = scanned.filterMap (selected? answers) := by
  obtain ⟨decisions, mapped, same⟩ := Result.bind_eq_ok.mp planned
  obtain rfl := Except.ok.inj same
  rw [eq_map_selected? (Result.mapM_eq_ok.mp mapped), List.filterMap_map]
  rfl

theorem decides_of_tasks {found : List UpgradeTask} (planned : tasks answers scanned = .ok found) :
    Decides answers scanned found where
  selected := eq_filterMap_selected? planned
  above := by
    intro task member
    obtain ⟨_, _, _, _, decided⟩ := mem_tasks planned member
    exact isAbove_of_isNewer (isNewer_of_upgrade? decided)
  alike := by
    intro first member second member' source current
    rw [exists_task_iff planned member, exists_task_iff planned member', source, current]

/-- A plan comes to an end exactly if all of its scan results can be decided about. -/
theorem tasks_comes_iff :
    (∃ found, tasks answers scanned = .ok found) ↔ ∀ result ∈ scanned, IsComparable answers result := by
  constructor
  · rintro ⟨found, planned⟩ result member
    obtain ⟨options, mapped, _⟩ := Result.bind_eq_ok.mp planned
    obtain ⟨task?, _, decided⟩ := Result.exists_of_mem_left (Result.mapM_eq_ok.mp mapped) member
    exact task?_comes_iff.mp ⟨task?, decided⟩
  · intro comparable
    have each : ∀ result ∈ scanned, ∃ task?, Plan.task? answers result = .ok task? ∧ True := by
      intro result member
      obtain ⟨task?, decided⟩ := task?_comes_iff.mpr (comparable result member)
      exact ⟨task?, decided, trivial⟩
    obtain ⟨options, mapped, _⟩ := Result.mapM_of_forall each
    exact ⟨options.filterMap id, Result.bind_eq_ok.mpr ⟨options, mapped, rfl⟩⟩

/-- A plan asks for the tags of every distinct source once, in the order in which the sources first
appear and before it decides anything; each source keeps the one reply that it was given. Under these
replies the plan comes to an end exactly if every version can be compared with the first tag of its
source, and then it is made of the scan results whose first tag is newer, in scan order. -/
theorem plan_asks_each_source_once {m : Type → Type} [Monad m] [LawfulMonad m]
    (resolve : String → m (List Datum)) (scanned : List ScanResult) :
    (sources scanned).Nodup ∧
    (∀ source, source ∈ sources scanned ↔ ∃ result ∈ scanned, result.dependency.source = source) ∧
    (askAll resolve [] scanned = do
      let replies ← (sources scanned).mapM resolve
      return (sources scanned).zip replies) ∧
    ∀ replies : List (List Datum), replies.length = (sources scanned).length →
      ∀ answers : Answers, answers = (sources scanned).zip replies →
        (sources scanned).map answers.tags = replies ∧
        ((∃ found, tasks answers scanned = .ok found) ↔
          ∀ result ∈ scanned, IsComparable answers result) ∧
        ∀ found, tasks answers scanned = .ok found → Decides answers scanned found := by
  refine ⟨nodup_sources scanned, fun source => mem_sources_iff, askAll_nil_eq resolve scanned, ?_⟩
  rintro replies same answers rfl
  refine ⟨map_tags_zip (nodup_sources scanned) same, tasks_comes_iff, fun found planned => ?_⟩
  exact decides_of_tasks planned

/-- Two modules of one source around a module of another. -/
def sampleScan : List ScanResult :=
  [⟨⟨"net", "git::https://host.example/net", "1.0.0", "main.tf", 1, .module⟩, "first"⟩,
    ⟨⟨"dns", "git::https://host.example/dns", "1.0.0", "main.tf", 5, .module⟩, "first"⟩,
    ⟨⟨"peer", "git::https://host.example/net", "2.0.0", "peer.tf", 1, .module⟩, "second"⟩]

/-- A source of tags that keeps a log of its calls, and has another answer for each. -/
def loggedTags (source : String) : StateM (List String) (List Datum) := do
  let asked ← get
  set (asked ++ [source])
  return if asked.isEmpty then [.text "1.2.0"] else [.text "3.0.0", .text "1.0.0"]

theorem plan_asks_each_source_once_sample :
    ((askAll loggedTags [] sampleScan).run []).2 =
      ["git::https://host.example/net", "git::https://host.example/dns"] ∧
    ∃ found, tasks ((askAll loggedTags [] sampleScan).run []).1 sampleScan = .ok found ∧
      found.map (fun task => (task.dependency.name, task.newVersion)) =
        [("net", "1.2.0"), ("dns", "3.0.0")] ∧
      Decides ((askAll loggedTags [] sampleScan).run []).1 sampleScan found := by
  obtain ⟨_, _, asked, decided⟩ := plan_asks_each_source_once loggedTags sampleScan
  have answered : ((askAll loggedTags [] sampleScan).run []).1 =
      (sources sampleScan).zip [[.text "1.2.0"], [.text "3.0.0", .text "1.0.0"]] := by
    rw [asked]
    rfl
  obtain ⟨_, _, decides⟩ := decided _ rfl _ answered
  refine ⟨by rw [asked]; rfl, ?_⟩
  rw [answered] at decides ⊢
  have planned : tasks ((sources sampleScan).zip [[.text "1.2.0"], [.text "3.0.0", .text "1.0.0"]])
      sampleScan = .ok [⟨⟨"net", "git::https://host.example/net", "1.0.0", "main.tf", 1, .module⟩,
        "1.2.0", "first"⟩, ⟨⟨"dns", "git::https://host.example/dns", "1.0.0", "main.tf", 5, .module⟩,
        "3.0.0", "first"⟩] := by
    decide
  exact ⟨_, planned, rfl, decides _ planned⟩

end InfraPins.Plan
