import InfraPins.Proofs.Scan.Legible
import InfraPins.Proofs.Update.Inquiry
import InfraPins.Proofs.Version.Precedence

namespace InfraPins

/-- Whether an answer has values of the right kinds, and versions that can be read. -/
def Call.Proper : (call : Call) → call.Answer → Prop
  | .listFiles _ _, entries => ∀ entry ∈ entries, ∃ path, entry.path = .text path
  | .fetchFile _ _, content => Scan.Legible content
  | .listTags _, tags => ∀ tag ∈ tags, ∃ text : String, tag = .text text ∧
      Version.Legible text.toList
  | _, _ => True

/-- A host whose operations give a proper value or report a failure, and journal no calls. -/
structure Host.Orderly {σ : Type} (host : Host σ) : Prop where
  discreet : host.Discreet
  reporting : host.Reporting
  proper : ∀ call state answer, (host.perform call state).result = .ok answer → call.Proper answer

/-- A host whose files, read as documents, list their modules. -/
def Host.ListsModules {σ : Type} (host : Host σ) : Prop :=
  ∀ repository path state content,
    (host.fetchFile repository path state).result = .ok content → Scan.ModulesListed content

namespace Act

variable {σ α β : Type} {host : Host σ}

/-- An operation that only reads; a value that it comes to has a property. -/
def Reads (host : Host σ) (act : Act σ α) (good : α → Prop) : Prop :=
  Converses host act fun responses result =>
    (∀ response ∈ responses, response.call.reads = true) ∧ ∀ value, result = .ok value → good value

namespace Reads

theorem bind {first : Act σ α} {next : α → Act σ β} {middle : α → Prop} {good : β → Prop}
    (head : Reads host first middle) (rest : ∀ value, middle value → Reads host (next value) good) :
    Reads host (first >>= next) good := by
  refine Converses.bind head ?_ ?_
  · intro responses value ⟨reads, here⟩
    refine (rest value (here value rfl)).weaken fun more result ⟨readsMore, there⟩ => ?_
    exact ⟨List.forall_mem_append.mpr ⟨reads, readsMore⟩, there⟩
  · intro responses cause ⟨reads, _⟩
    exact ⟨reads, nofun⟩

theorem ask (discreet : host.Discreet) (reporting : host.Reporting) (call : Call)
    (reads : call.reads = true) :
    Reads host ((host.ask call).attempt Failure.hostMessage?) fun _ => True := by
  refine (Converses.attemptAsk discreet reporting call).weaken fun responses result came => ?_
  rcases came with ⟨value, _, _, rfl, _⟩ | ⟨cause, _, _, rfl, _⟩
  · exact ⟨List.forall_mem_singleton.mpr reads, fun _ _ => trivial⟩
  · exact ⟨List.forall_mem_singleton.mpr reads, fun _ _ => trivial⟩

/-- On a host that fails only by report every reading is one, whatever is made of the answers. -/
theorem rules (discreet : host.Discreet) (reporting : host.Reporting) :
    FreeReadingRules host (fun _ _ => True) fun {α} (act : Act σ α) good => Reads host act good where
  pure holds := Converses.done ⟨nofun, fun _ same => Except.ok.inj same ▸ holds⟩
  bind := bind
  note _ silent := Converses.of_silent (fun _ => rfl) (fun _ => silent) fun _ =>
    ⟨nofun, fun _ _ => trivial⟩
  ask call reads := (ask discreet reporting call reads).weaken fun _ _ ⟨all, _⟩ =>
    ⟨all, fun _ _ _ _ => trivial⟩
  lift holds := Converses.of_silent (fun _ => rfl) (fun _ => rfl) fun _ => ⟨nofun, holds⟩

end Reads

/-- An operation that only reads, and comes to a value with a property. -/
def Gathers (host : Host σ) (act : Act σ α) (good : α → Prop) : Prop :=
  Converses host act fun responses result =>
    (∀ response ∈ responses, response.call.reads = true) ∧
      ∃ value, result = .ok value ∧ good value

namespace Gathers

theorem pure {value : α} {good : α → Prop} (holds : good value) :
    Gathers host (Pure.pure value) good :=
  Converses.done ⟨nofun, value, rfl, holds⟩

theorem note {event : Event} (silent : calls [event] = []) :
    Gathers host (Act.record event) fun _ => True :=
  Converses.of_silent (fun _ => rfl) (fun _ => silent) fun _ => ⟨nofun, (), rfl, trivial⟩

theorem lift {computed : Except Failure α} {good : α → Prop}
    (holds : ∃ value, computed = .ok value ∧ good value) :
    Gathers host (Act.lift computed) good :=
  Converses.lift.weaken fun _ _ ⟨silent, same⟩ => by
    obtain ⟨value, given, here⟩ := holds
    exact ⟨by simp [silent], value, same.trans given, here⟩

theorem bind {first : Act σ α} {next : α → Act σ β} {middle : α → Prop} {good : β → Prop}
    (head : Gathers host first middle)
    (rest : ∀ value, middle value → Gathers host (next value) good) :
    Gathers host (first >>= next) good := by
  refine Converses.bind head (fun responses value ⟨reads, other, same, here⟩ => ?_) ?_
  · obtain rfl := Except.ok.inj same
    refine (rest value here).weaken fun more result ⟨readsMore, last, ends, there⟩ => ?_
    refine ⟨fun response member => ?_, last, ends, there⟩
    rcases List.mem_append.mp member with member | member
    · exact reads response member
    · exact readsMore response member
  · rintro responses cause ⟨_, value, same, _⟩
    cases same

theorem ask (orderly : host.Orderly) (call : Call) (reads : call.reads = true) :
    Gathers host ((host.ask call).attempt Failure.hostMessage?) fun answer =>
      ∀ value, answer = .ok value → host.MayGive call value := by
  refine (Converses.attemptAsk orderly.discreet orderly.reporting call).weaken
    fun responses result came => ?_
  rcases came with ⟨value, state, granted, same, came⟩ | ⟨cause, message, _, same, came⟩
  · refine ⟨by simp [same, reads], _, came, fun other equal => ?_⟩
    obtain rfl := Except.ok.inj equal
    exact ⟨state, granted⟩
  · exact ⟨by simp [same, reads], _, came, nofun⟩

theorem rules (orderly : host.Orderly) :
    ReadingRules host host.MayGive fun {α} (act : Act σ α) good => Gathers host act good where
  pure := pure
  bind := bind
  note := fun _ => note
  ask := ask orderly

end Gathers

end Act

namespace Update

open Act

variable {σ : Type} {host : Host σ} {repository : Repository}

def AllLegible (results : List ScanResult) : Prop :=
  ∀ result ∈ results, Version.Legible result.dependency.current.toList

def LegibleTags (tags : List Datum) : Prop :=
  ∀ tag ∈ tags, ∃ text : String, tag = .text text ∧ Version.Legible text.toList

theorem upgrade?_of_legible {current : String} {tags : List Datum}
    (legible : Version.Legible current.toList) (good : LegibleTags tags) :
    ∃ version, Plan.upgrade? current tags = .ok version := by
  unfold Plan.upgrade?
  split
  · exact ⟨none, rfl⟩
  · rename_i latest rest
    obtain ⟨text, rfl, readable⟩ := good latest List.mem_cons_self
    split
    · exact ⟨none, rfl⟩
    · obtain ⟨newer, compared⟩ := Version.isNewerTag_of_legible legible readable
      cases newer <;> exact ⟨_, by simp only [compared]; rfl⟩

theorem tasks_of_legible {answers : Plan.Answers} {scanned : List ScanResult}
    (answered : ∀ result ∈ scanned, LegibleTags (answers.tags result.dependency.source))
    (legible : ∀ result ∈ scanned, Version.Legible result.dependency.current.toList) :
    ∃ tasks, Plan.tasks answers scanned = .ok tasks := by
  have each : ∀ result ∈ scanned, ∃ task, Plan.task? answers result = .ok task ∧ True := by
    intro result member
    obtain ⟨version, decided⟩ := upgrade?_of_legible (legible result member) (answered result member)
    exact ⟨_, by simp only [Plan.task?, decided]; rfl, trivial⟩
  obtain ⟨tasks, found, _⟩ := Result.mapM_of_forall each
  exact ⟨tasks.filterMap id, by simp only [Plan.tasks, found]; rfl⟩

private theorem readable (orderly : host.Orderly) (listing : host.ListsModules) :
    Readable host.MayGive (fun {α} (act : Act σ α) good => Gathers host act good)
      (fun result => Version.Legible result.dependency.current.toList) LegibleTags where
  paths repository suffix entries := by
    rintro ⟨state, listed⟩ entry member
    obtain ⟨path, textual⟩ := orderly.proper _ state entries listed entry member
    exact .lift ⟨path, by rw [textual]; rfl, trivial⟩
  scans repository path content format := by
    rintro ⟨state, fetched⟩
    have legible : Scan.Legible content := orderly.proper _ state content fetched
    have listed := listing repository path state content fetched
    exact .lift (Scan.report_of_legible legible listed path format)
  tags repository tags := by
    rintro ⟨state, listed⟩
    exact orderly.proper _ state tags listed
  none := nofun

/-- A plan is made by reading alone. -/
theorem plan_gathers (orderly : host.Orderly) (listing : host.ListsModules) :
    Gathers host (plan host repository) fun _ => True := by
  refine plan_goes (Gathers.rules orderly) (readable orderly listing) trivial
    fun answers scanned covers legible => .lift ?_
  obtain ⟨tasks, planned⟩ := tasks_of_legible (fun _ => covers.tags) legible
  exact ⟨tasks, planned, trivial⟩

end Update

end InfraPins
