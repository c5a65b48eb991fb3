import InfraPins.Proofs.Run.Account
import InfraPins.Proofs.Update.Inquiry

namespace InfraPins

/-- Rules of reasoning about operations over the hosts of a registry: besides values and chains, they are
about entries of the journal that are no calls, attempts to make a host, which is then of some kind,
readings from such a host, and letting go of it. -/
structure RunRules {σ : Type} (registry : Registry σ) (kept : Host σ → Prop)
    (proper : Host σ → (call : Call) → call.Answer → Prop)
    (Goes : {α : Type} → Act σ α → (α → Prop) → Prop) : Prop extends Rules Goes where
  note : ∀ event, calls [event] = [] → Goes (Act.record event) fun _ => True
  opening : ∀ hostType token baseUrl,
    Goes ((registry.openHost hostType token baseUrl).attempt Failure.hostMessage?) fun answer =>
      ∀ host, answer = .ok host → kept host
  reading : ∀ host, kept host → ReadingRules host (proper host) Goes
  closing : ∀ {α : Type} {act : Act σ α} {good : α → Prop} host, kept host → Goes act good →
    Goes (act.ensuring host.askClose) good

namespace Run

variable {σ β : Type} {registry : Registry σ} {kept : Host σ → Prop} {host : Host σ}
  {options : RunOptions} {Goes : {α : Type} → Act σ α → (α → Prop) → Prop}

section Visits

variable {proper : (call : Call) → call.Answer → Prop} {valid : β → Prop}

theorem visitRepositories_goes (rules : Rules Goes) {visit : Repository → β → Act σ (β × Nat)}
    (visiting : ∀ repository gathered, valid gathered →
      Goes (visit repository gathered) fun found => valid found.1)
    (repositories : List Repository) (tally : Tally β) (holds : valid tally.gathered) :
    Goes (visitRepositories options visit repositories tally) fun after => valid after.gathered := by
  induction repositories generalizing tally with
  | nil => exact rules.pure holds
  | cons repository rest ih =>
    unfold visitRepositories
    split
    · exact ih tally holds
    · exact rules.bind (visiting repository tally.gathered holds) fun _ here => ih _ here

theorem visitOrganizations_goes (rules : ReadingRules host proper Goes)
    {visit : Repository → β → Act σ (β × Nat)}
    (visiting : ∀ repository gathered, valid gathered →
      Goes (visit repository gathered) fun found => valid found.1)
    (organizations : List String) (tally : Tally β) (holds : valid tally.gathered) :
    Goes (visitOrganizations options host visit organizations tally)
      fun after => valid after.gathered := by
  induction organizations generalizing tally with
  | nil => exact rules.pure holds
  | cons organization rest ih =>
    unfold visitOrganizations
    split
    · exact ih tally holds
    · refine rules.seq (rules.log _ _) fun _ => ?_
      refine rules.bind (rules.ask (.discover organization) rfl) fun answer _ => ?_
      cases answer with
      | error message => exact rules.seq (rules.log _ _) fun _ => ih _ holds
      | ok repositories =>
        refine rules.seq (rules.log _ _) fun _ => ?_
        exact rules.bind (visitRepositories_goes rules.toRules visiting repositories tally holds) ih

end Visits

variable {proper : Host σ → (call : Call) → call.Answer → Prop}

theorem visitProviders_goes (rules : RunRules registry kept proper Goes) {visit : Visitor σ β}
    {valid : β → Prop}
    (visiting : ∀ index host, kept host → ∀ repository gathered, valid gathered →
      Goes (visit index host repository gathered) fun found => valid found.1)
    (providers : List ProviderConfig) (index : Nat) (tally : Tally β) (holds : valid tally.gathered) :
    Goes (visitProviders registry options visit index providers tally)
      fun after => valid after.gathered := by
  have log (level : Level) (text : String) : Goes (Act.log level text) fun _ => True :=
    rules.note _ rfl
  induction providers generalizing index tally with
  | nil => exact rules.pure holds
  | cons provider rest ih =>
    unfold visitProviders
    split
    · exact ih _ tally holds
    · refine rules.bind (rules.opening _ _ _) fun answer opened => ?_
      cases answer with
      | error message => exact rules.bind (log _ _) fun _ _ => ih _ _ holds
      | ok host =>
        have here : kept host := opened host rfl
        refine rules.bind (log _ _) fun _ _ => rules.bind (rules.closing host here ?_) (ih _)
        exact visitOrganizations_goes (rules.reading host here) (visiting index host here) _ tally holds

/-- A memo at hand all of whose lists of tags have a property. -/
def Listed.Holds (fine : List Datum → Prop) (listed : Listed) : Prop :=
  ∀ index organization memo, listed.memo = some (index, organization, memo) → memo.Holds fine

section Listing

variable {fine : List Datum → Prop} {good : ScanResult → Prop}

private theorem Listed.Holds.memoFor {listed : Listed} (holds : listed.Holds fine) {index : Nat}
    {organization : String} : (listed.memoFor index organization).Holds fine := by
  unfold Listed.memoFor
  split
  · rename_i index' organization' memo same
    split
    · exact holds _ _ _ same
    · exact TagMemo.holds_empty
  · exact TagMemo.holds_empty

/-- What a listing computes goes well: each status of what is good, with tags that are fine. -/
def Tells (Goes : {α : Type} → Act σ α → (α → Prop) → Prop) (good : ScanResult → Prop)
    (fine : List Datum → Prop) : Prop :=
  ∀ repository result tags, good result → fine tags →
    Goes (Act.lift (status repository result.dependency tags)) fun _ => True

theorem statuses_goes {proper : (call : Call) → call.Answer → Prop}
    (rules : ReadingRules host proper Goes) (readable : Readable proper Goes good fine)
    (tells : Tells Goes good fine) {organization : String} {repository : Repository}
    {scanned : List ScanResult} {memo : TagMemo} (found : ∀ result ∈ scanned, good result)
    (holds : memo.Holds fine) :
    Goes (statuses host organization repository scanned memo) fun shown => shown.2.Holds fine := by
  induction scanned generalizing memo with
  | nil => exact rules.pure holds
  | cons result scanned ih =>
    obtain ⟨first, others⟩ := List.forall_mem_cons.mp found
    refine rules.bind (Update.resolve_goes rules readable holds) fun ⟨tags, memo'⟩ answered => ?_
    refine rules.seq (tells repository result tags first answered.1) fun _ => ?_
    exact rules.bind (ih others answered.2) fun _ left => rules.pure left

theorem listRepository_goes {proper : (call : Call) → call.Answer → Prop}
    (rules : ReadingRules host proper Goes) (readable : Readable proper Goes good fine)
    (tells : Tells Goes good fine) {outdatedOnly : Bool} {index : Nat} {repository : Repository}
    {listed : Listed} (holds : listed.Holds fine) :
    Goes (listRepository outdatedOnly index host repository listed) fun found =>
      found.1.Holds fine := by
  refine rules.bind (Update.scanRepository_goes rules readable) fun scanned found => ?_
  split
  · exact rules.pure holds
  · refine rules.bind (statuses_goes rules readable tells found holds.memoFor) fun shown kept => ?_
    refine rules.pure fun index' organization memo same => ?_
    obtain rfl := (Prod.mk.inj (Prod.mk.inj (Option.some.inj same)).2).2
    exact kept

/-- A listing goes well if what it computes does. -/
theorem list_goes (rules : RunRules registry kept proper Goes)
    (readable : ∀ host, kept host → Readable (proper host) Goes good fine)
    (tells : ∀ host, kept host → Tells Goes good fine) (config : Config) (outdatedOnly : Bool) :
    Goes (list registry config options outdatedOnly) fun _ => True := by
  have visiting (index : Nat) (host : Host σ) (here : kept host) (repository : Repository)
      (listed : Listed) (holds : listed.Holds fine) :
      Goes (listRepository outdatedOnly index host repository listed) fun found =>
        found.1.Holds fine :=
    listRepository_goes (rules.reading host here) (readable host here) (tells host here) holds
  refine rules.bind (visitProviders_goes rules visiting _ _ _ nofun) fun _ _ => ?_
  exact rules.bind (rules.note _ rfl) fun _ _ => rules.pure trivial

end Listing

section Updates

variable {proper : (call : Call) → call.Answer → Prop} {config : Config} {repository : Repository}

theorem update_goes (rules : ReadingRules host proper Goes) {updater : Updater σ}
    (detecting : Goes (updater.detect host repository) fun _ => True)
    (ordering : Goes ((order options config updater host repository).attempt Failure.updateMessage?)
      fun _ => True) :
    Goes (update options config updater host repository) fun _ => True := by
  cases wanted : wants options config updater with
  | false =>
    rw [update_of_unwanted wanted]
    exact rules.done
  | true =>
    rw [update_of_wanted wanted]
    refine rules.seq (rules.seq (rules.note _ rfl) fun _ => detecting) fun detected => ?_
    split
    · refine rules.seq (rules.log _ _) fun _ => rules.seq ordering fun answer => ?_
      cases answer with
      | error message => exact rules.seq (rules.log _ _) fun _ => rules.done
      | ok requests =>
        exact rules.seq (rules.forM fun _ _ => rules.log _ _) fun _ => rules.done
    · exact rules.done

theorem updateAll_goes (rules : Rules Goes) {updaters : List (Updater σ)}
    (updating : ∀ updater ∈ updaters,
      Goes (update options config updater host repository) fun _ => True) :
    Goes (updateAll options config host repository updaters) fun _ => True := by
  induction updaters with
  | nil => exact rules.pure trivial
  | cons updater rest ih =>
    obtain ⟨first, others⟩ := List.forall_mem_cons.mp updating
    exact rules.bind first fun _ _ => rules.bind (ih others) fun _ _ => rules.pure trivial

end Updates

theorem run_goes (rules : RunRules registry kept proper Goes) {updaters : List (Updater σ)}
    {config : Config}
    (updating : ∀ host, kept host → ∀ repository, ∀ updater ∈ updaters,
      Goes (update options config updater host repository) fun _ => True) :
    Goes (run registry updaters config options) fun _ => True := by
  have visiting (index : Nat) (host : Host σ) (here : kept host) (repository : Repository)
      (gathered : List PullRequest) (_ : True) :
      Goes (visitor updaters config options index host repository gathered) fun _ => True :=
    rules.bind (updateAll_goes rules.toRules (updating host here repository)) fun _ _ =>
      rules.pure trivial
  rw [run_eq]
  refine rules.bind (visitProviders_goes rules visiting _ _ _ trivial) fun _ _ => ?_
  exact rules.bind (rules.note _ rfl) fun _ _ => rules.pure trivial

end Run

end InfraPins
