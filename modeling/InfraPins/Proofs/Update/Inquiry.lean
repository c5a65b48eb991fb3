import InfraPins.Proofs.Host.Responses
import InfraPins.Proofs.Rules
import InfraPins.Update

namespace InfraPins

/-- Whether a call only reads what a plan is made from. -/
def Call.reads : Call → Bool
  | .discover _ | .listFiles _ _ | .fetchFile _ _ | .listTags _ => true
  | _ => false

def Host.MayGive {σ : Type} (host : Host σ) (call : Call) (value : call.Answer) : Prop :=
  ∃ state, (host.perform call state).result = .ok value

def TagMemo.Holds (fine : List Datum → Prop) (memo : TagMemo) : Prop :=
  ∀ entry ∈ memo.tags, fine entry.2

theorem TagMemo.holds_empty {fine : List Datum → Prop} : TagMemo.empty.Holds fine :=
  nofun

theorem TagMemo.Holds.note {fine : List Datum → Prop} {memo : TagMemo} (holds : memo.Holds fine)
    {name : String} {tags : List Datum} (here : fine tags) :
    TagMemo.Holds fine { memo with tags := (name, tags) :: memo.tags } :=
  List.forall_mem_cons.mpr ⟨here, holds⟩

/-- Rules of reasoning about operations that only read from a host: besides values and chains, they are
about entries of the journal that are no calls, and attempts at readings, whose answers have a
property. -/
structure ReadingRules {σ : Type} (host : Host σ) (proper : (call : Call) → call.Answer → Prop)
    (Goes : {α : Type} → Act σ α → (α → Prop) → Prop) : Prop extends Rules Goes where
  note : ∀ event, calls [event] = [] → Goes (Act.record event) fun _ => True
  ask : ∀ call : Call, call.reads = true →
    Goes ((host.ask call).attempt Failure.hostMessage?) fun answer =>
      ∀ value, answer = .ok value → proper call value

/-- Such rules by which every computation goes well. -/
structure FreeReadingRules {σ : Type} (host : Host σ) (proper : (call : Call) → call.Answer → Prop)
    (Goes : {α : Type} → Act σ α → (α → Prop) → Prop) : Prop extends ReadingRules host proper Goes where
  lift : ∀ {α : Type} {computed : Except Failure α} {good : α → Prop},
    (∀ value, computed = .ok value → good value) → Goes (Act.lift computed) good

/-- What is computed from the answers of a host goes well: the paths of its files are read, the scans of
its files find what is good, and its tags are fine. -/
structure Readable {σ : Type} (proper : (call : Call) → call.Answer → Prop)
    (Goes : {α : Type} → Act σ α → (α → Prop) → Prop) (good : ScanResult → Prop)
    (fine : List Datum → Prop) : Prop where
  paths : ∀ repository suffix entries, proper (.listFiles repository suffix) entries →
    ∀ entry ∈ entries, Goes (Act.use entry.path.textOperand) fun _ => True
  scans : ∀ repository path content format, proper (.fetchFile repository path) content →
    Goes (Act.lift (Scan.report content path format)) fun report =>
      ∀ dependency ∈ report.dependencies, good ⟨dependency, content⟩
  tags : ∀ repository tags, proper (.listTags repository) tags → fine tags
  none : fine []

namespace ReadingRules

variable {σ α β : Type} {host : Host σ} {proper : (call : Call) → call.Answer → Prop}
  {Goes : {α : Type} → Act σ α → (α → Prop) → Prop}

theorem log (rules : ReadingRules host proper Goes) (level : Level) (text : String) :
    Goes (Act.log level text) fun _ => True :=
  rules.note _ rfl

theorem done (rules : ReadingRules host proper Goes) {value : α} :
    Goes (Pure.pure value) fun _ => True :=
  rules.pure trivial

theorem seq (rules : ReadingRules host proper Goes) {first : Act σ α} {next : α → Act σ β}
    {good : β → Prop} (head : Goes first fun _ => True) (rest : ∀ value, Goes (next value) good) :
    Goes (first >>= next) good :=
  rules.bind head fun value _ => rest value

end ReadingRules

namespace FreeReadingRules

variable {σ : Type} {host : Host σ} {proper : (call : Call) → call.Answer → Prop}
  {Goes : {α : Type} → Act σ α → (α → Prop) → Prop}

theorem readable (rules : FreeReadingRules host proper Goes) {good : ScanResult → Prop}
    (finds : ∀ repository path content format report, proper (.fetchFile repository path) content →
      Scan.report content path format = .ok report →
        ∀ dependency ∈ report.dependencies, good ⟨dependency, content⟩) :
    Readable proper Goes good fun _ => True where
  paths _ _ _ _ _ _ := rules.lift fun _ _ => trivial
  scans repository path content format given := rules.lift fun report scanned =>
    finds repository path content format report given scanned
  tags _ _ _ := trivial
  none := trivial

end FreeReadingRules

namespace Update

variable {σ : Type} {host : Host σ} {proper : (call : Call) → call.Answer → Prop}
  {Goes : {α : Type} → Act σ α → (α → Prop) → Prop} {repository : Repository}

theorem mem_of_lookup {α : Type} {pairs : List (String × α)} {key : String} {value : α}
    (found : pairs.lookup key = some value) : (key, value) ∈ pairs := by
  obtain ⟨_, _, rfl, _⟩ := List.lookup_eq_some_iff.mp found
  simp

theorem resolveWithMemo_run (host : Host σ) (organization source : String) (memo : TagMemo) :
    (Resolve.resolveWithMemo host organization source).run memo =
      Resolve.resolve host organization source memo := by
  unfold Resolve.resolveWithMemo StateT.run
  rfl

theorem detect_goes (rules : ReadingRules host proper Goes) :
    Goes (detect host repository) fun _ => True := by
  have suffixes (suffixes : List (String × FileFormat)) :
      Goes (detectSuffixes host repository suffixes) fun _ => True := by
    induction suffixes with
    | nil => exact rules.done
    | cons suffix suffixes ih =>
      refine rules.bind (rules.ask (.listFiles repository suffix.1) rfl) fun answer _ => ?_
      split
      · exact ih
      · exact rules.done
      · exact rules.seq (rules.log _ _) fun _ => ih
  exact suffixes _

private theorem listing_goes (rules : ReadingRules host proper Goes) {fine : List Datum → Prop}
    {organization : String} {memo : TagMemo} (holds : memo.Holds fine) :
    Goes (Resolve.listing host organization memo) fun found => found.2.Holds fine := by
  unfold Resolve.listing
  split
  · exact rules.pure holds
  · refine rules.bind (rules.ask (.discover organization) rfl) fun answer _ => ?_
    cases answer with
    | ok repositories => exact rules.pure holds
    | error message => exact rules.seq (rules.log _ _) fun _ => rules.pure holds

variable {good : ScanResult → Prop} {fine : List Datum → Prop}
  (rules : ReadingRules host proper Goes) (readable : Readable proper Goes good fine)

include rules readable

private theorem scanContent_goes {content path : String} {format : FileFormat}
    (given : proper (.fetchFile repository path) content) :
    Goes (scanContent content path format) fun results => ∀ result ∈ results, good result := by
  have logged (report : Scan.Report) :
      Goes (Scan.Report.logged report) fun dependencies => dependencies = report.dependencies := by
    unfold Scan.Report.logged
    split
    · exact rules.seq (rules.log _ _) fun _ => rules.pure rfl
    · exact rules.pure rfl
  refine rules.bind (readable.scans repository path content format given) fun report found => ?_
  refine rules.bind (logged report) fun dependencies same => rules.pure ?_
  rw [same, List.forall_mem_map]
  exact found

private theorem scanEntry_goes {format : FileFormat} {entry : TreeEntry}
    (read : Goes (Act.use entry.path.textOperand) fun _ => True) :
    Goes (scanEntry host repository format entry) fun results =>
      ∀ result ∈ results, good result := by
  unfold scanEntry
  split
  · exact rules.pure nofun
  · refine rules.seq read fun path => ?_
    refine rules.bind (rules.ask (.fetchFile repository path) rfl) fun answer given => ?_
    cases answer with
    | error message => exact rules.seq (rules.log _ _) fun _ => rules.pure nofun
    | ok content => exact scanContent_goes rules readable (given content rfl)

theorem scanRepository_goes :
    Goes (scanRepository host repository) fun results => ∀ result ∈ results, good result := by
  have flatten {lists : List (List ScanResult)}
      (each : ∀ results ∈ lists, ∀ result ∈ results, good result) :
      ∀ result ∈ lists.flatten, good result := fun result member =>
    have ⟨results, inside, here⟩ := List.mem_flatten.mp member
    each results inside result here
  refine rules.bind (rules.mapM fun suffix _ => ?_) fun lists each => rules.pure (flatten each)
  refine rules.bind (rules.ask (.listFiles repository suffix.1) rfl) fun answer given => ?_
  cases answer with
  | error message => exact rules.seq (rules.log _ _) fun _ => rules.pure nofun
  | ok entries =>
    refine rules.bind (rules.mapM fun entry member => ?_) fun lists each => rules.pure (flatten each)
    exact scanEntry_goes rules readable (readable.paths _ _ _ (given entries rfl) entry member)

private theorem tagsOf_goes {name : String} {memo : TagMemo} (holds : memo.Holds fine) :
    Goes (Resolve.tagsOf host repository name memo) fun found => fine found.1 ∧ found.2.Holds fine := by
  unfold Resolve.tagsOf
  split
  · rename_i known found
    exact rules.pure ⟨holds _ (mem_of_lookup found), holds⟩
  · refine rules.bind (rules.ask (.listTags repository) rfl) fun answer given => ?_
    cases answer with
    | ok tags =>
      have here : fine tags := readable.tags repository tags (given tags rfl)
      exact rules.pure ⟨here, holds.note here⟩
    | error message =>
      exact rules.seq (rules.log _ _) fun _ => rules.pure ⟨readable.none, holds.note readable.none⟩

theorem resolve_goes {organization source : String} {memo : TagMemo} (holds : memo.Holds fine) :
    Goes (Resolve.resolve host organization source memo) fun found =>
      fine found.1 ∧ found.2.Holds fine := by
  unfold Resolve.resolve
  dsimp only
  split
  · exact rules.pure ⟨readable.none, holds⟩
  · refine rules.bind (listing_goes rules holds) fun ⟨repositories, memo'⟩ kept => ?_
    dsimp only
    split
    · exact rules.pure ⟨readable.none, kept⟩
    · exact rules.pure ⟨readable.none, kept⟩
    · split
      · exact tagsOf_goes rules readable kept
      · exact rules.seq (rules.log _ _) fun _ => rules.pure ⟨readable.none, kept⟩

/-- A plan goes well if it does where nothing is found and once the tags of all sources are known. -/
theorem plan_goes {told : List UpgradeTask → Prop} (nothing : told [])
    (tasks : ∀ answers scanned, Plan.Answers.Covers (fun _ => fine) scanned answers →
      (∀ result ∈ scanned, good result) → Goes (Act.lift (Plan.tasks answers scanned)) told) :
    Goes (plan host repository) told := by
  refine rules.bind (scanRepository_goes rules readable) fun scanned found => ?_
  split
  · exact rules.pure nothing
  · have asks (source : String) (memo : TagMemo) (holds : memo.Holds fine) :
        Goes ((Resolve.resolveWithMemo host repository.organization source).run memo)
          fun answered => fine answered.1 ∧ answered.2.Holds fine := by
      rw [resolveWithMemo_run]
      exact resolve_goes rules readable holds
    refine rules.bind (Plan.askAll_goes rules.stateT (fun _ => fine) asks TagMemo.empty
      TagMemo.holds_empty) fun answered covers => ?_
    exact tasks answered.1 scanned covers.1 found

end Update

/-- Where every computation goes well, a plan comes to the tasks that some answers give. -/
theorem FreeReadingRules.plan_tasks {σ : Type} {host : Host σ}
    {proper : (call : Call) → call.Answer → Prop} {Goes : {α : Type} → Act σ α → (α → Prop) → Prop}
    {repository : Repository} (rules : FreeReadingRules host proper Goes) :
    Goes (Update.plan host repository) fun tasks =>
      ∃ answers scanned, Plan.tasks answers scanned = .ok tasks := by
  have readable : Readable proper Goes (fun _ => True) fun _ => True :=
    rules.readable fun _ _ _ _ _ _ _ _ _ => trivial
  exact Update.plan_goes rules.toReadingRules readable ⟨[], [], rfl⟩ fun answers scanned _ _ =>
    rules.lift fun _ planned => ⟨answers, scanned, planned⟩

/-- A plan goes well where every computation does. -/
theorem FreeReadingRules.plan {σ : Type} {host : Host σ}
    {proper : (call : Call) → call.Answer → Prop} {Goes : {α : Type} → Act σ α → (α → Prop) → Prop}
    {repository : Repository} (rules : FreeReadingRules host proper Goes) :
    Goes (Update.plan host repository) fun _ => True :=
  rules.weaken rules.plan_tasks fun _ _ => trivial

end InfraPins
