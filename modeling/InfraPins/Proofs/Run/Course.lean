import Mathlib.Algebra.GroupWithZero.Nat
import InfraPins.Proofs.Journal
import InfraPins.Run

/-! The course of a run over a configuration. A run opens the selected providers one after another;
at each it asks for the repositories of the selected organizations and visits those that are
selected, and then it lets go of the host. What failed on the way is part of the course, and so is
what came of each visit. -/

namespace InfraPins

def Registry.Opens {σ : Type} (registry : Registry σ) (host : Host σ) : Prop :=
  ∃ hostType token baseUrl state,
    (registry.openHost hostType token baseUrl state).result = .ok host

/-- Making a host fails for want of its type, or is up to an opener of the registry. -/
theorem Registry.openHost_result {σ : Type} (registry : Registry σ)
    (hostType token baseUrl : String) :
    (∀ state, (registry.openHost hostType token baseUrl state).result =
        .error (.unknownHost hostType)) ∨
      ∃ entry ∈ registry, ∃ base, ∀ state,
        (registry.openHost hostType token baseUrl state).result = (entry.2 token base state).result := by
  unfold Registry.openHost
  cases found : registry.lookup hostType with
  | none => exact .inl fun _ => rfl
  | some opener =>
    obtain ⟨before, after, split, _⟩ := List.lookup_eq_some_iff.mp found
    exact .inr ⟨(hostType, opener), by simp [split], _, fun _ => rfl⟩

section Single

variable {σ : Type} {name : String} {host : Host σ}

theorem Registry.eq_of_opens_single {other : Host σ}
    (opens : Registry.Opens [(name, fun _ _ => pure host)] other) : other = host := by
  obtain ⟨hostType, token, baseUrl, state, came⟩ := opens
  rcases Registry.openHost_result [(name, fun _ _ => pure host)] hostType token baseUrl with
    unknown | ⟨entry, member, base, same⟩
  · cases (unknown state).symm.trans came
  · obtain rfl := List.mem_singleton.mp member
    exact (Except.ok.inj ((same state).symm.trans came)).symm

/-- A registry of one host fails only for want of another type. -/
theorem Registry.told_of_openHost_single {hostType token baseUrl : String} {state : σ} {cause : Failure}
    (failed : (Registry.openHost [(name, fun _ _ => pure host)] hostType token baseUrl state).result =
      .error cause) : ∃ message, cause.hostMessage? = some message := by
  rcases Registry.openHost_result [(name, fun _ _ => pure host)] hostType token baseUrl with
    unknown | ⟨entry, member, base, same⟩
  · obtain rfl := Except.error.inj ((unknown state).symm.trans failed)
    exact ⟨_, rfl⟩
  · obtain rfl := List.mem_singleton.mp member
    cases (same state).symm.trans failed

end Single

namespace Run

variable {σ β ε V : Type}

/-- Whether a repository passes the filter. -/
def selected (options : RunOptions) (repository : Repository) : Bool :=
  options.repository.isEmpty || repository.name = .text options.repository

/-- What came of an organization: its repositories could not be told, or those selected of them were
visited. -/
inductive Discovery (V : Type) where
  | failed (organization message : String)
  | listed (organization : String) (listing : List Repository) (visits : List (Repository × V))

/-- What came of a provider: no host could be made, or its organizations were gone through. -/
inductive Service (σ V : Type) where
  | unopened (provider : ProviderConfig) (message : String)
  | served (provider : ProviderConfig) (host : Host σ) (discoveries : List (Discovery V))

namespace Discovery

def organization : Discovery V → String
  | .failed organization _ => organization
  | .listed organization _ _ => organization

/-- The repositories visited, with what came of each visit. -/
def visits : Discovery V → List (Repository × V)
  | .failed _ _ => []
  | .listed _ _ visits => visits

/-- Whether the repositories could not be told. -/
def isFailed : Discovery V → Bool
  | .failed _ _ => true
  | .listed _ _ _ => false

/-- The repositories visited are those selected, in the order in which they were listed. -/
def Selects (options : RunOptions) : Discovery V → Prop
  | .failed _ _ => True
  | .listed _ listing visits => visits.map Prod.fst = listing.filter (selected options)

/-- How it went with an organization. -/
inductive Happens (host : Host σ) (stay : Repository × V → σ → List Event → σ → Prop) :
    Discovery V → σ → List Event → σ → Prop where
  | failed {organization message : String} {cause : Failure} {start last : σ} {events : List Event}
      (refused : (host.askDiscover organization).Comes start (.error cause) events last)
      (told : cause.hostMessage? = some message) :
      Happens host stay (.failed organization message) start events last
  | listed {organization : String} {listing : List Repository} {visits : List (Repository × V)}
      {start middle last : σ} {events more : List Event}
      (granted : (host.askDiscover organization).Comes start (.ok listing) events middle)
      (stays : Chain stay visits middle more last) :
      Happens host stay (.listed organization listing visits) start (events ++ more) last

end Discovery

namespace Service

def provider : Service σ V → ProviderConfig
  | .unopened provider _ => provider
  | .served provider _ _ => provider

/-- What came of the organizations of a provider. -/
def discoveries : Service σ V → List (Discovery V)
  | .unopened _ _ => []
  | .served _ _ discoveries => discoveries

/-- Whether no host could be made. -/
def isUnopened : Service σ V → Bool
  | .unopened _ _ => true
  | .served _ _ _ => false

/-- The organizations gone through are those selected, in the order of the configuration. -/
def Selects (options : RunOptions) : Service σ V → Prop
  | .unopened _ _ => True
  | .served provider _ discoveries =>
    discoveries.map Discovery.organization =
        provider.organizations.filter (passes options.organization) ∧
      ∀ discovery ∈ discoveries, discovery.Selects options

/-- How it went with a provider. Its host is let go of once, when all is done. -/
inductive Happens (registry : Registry σ)
    (stay : Host σ → Repository × V → σ → List Event → σ → Prop) :
    Service σ V → σ → List Event → σ → Prop where
  | unopened {provider : ProviderConfig} {message : String} {cause : Failure} {start last : σ}
      {events : List Event}
      (refused : (registry.openHost provider.hostType provider.token provider.baseUrl).Comes start
        (.error cause) events last)
      (told : cause.hostMessage? = some message) :
      Happens registry stay (.unopened provider message) start events last
  | served {provider : ProviderConfig} {host : Host σ} {discoveries : List (Discovery V)}
      {start opened left last : σ} {opening doing closing : List Event}
      (granted : (registry.openHost provider.hostType provider.token provider.baseUrl).Comes start
        (.ok host) opening opened)
      (happens : Chain (Discovery.Happens host (stay host)) discoveries opened doing left)
      (closed : host.askClose.Comes left (.ok ()) closing last) :
      Happens registry stay (.served provider host discoveries) start
        (opening ++ doing ++ closing) last

end Service

/-- The providers gone through are those selected, in the order of the configuration. -/
def Selects (options : RunOptions) (providers : List ProviderConfig)
    (services : List (Service σ V)) : Prop :=
  services.map Service.provider = providers.filter (passes options.hostType ·.hostType) ∧
    ∀ service ∈ services, service.Selects options

/-- All visits. -/
def visits (services : List (Service σ V)) : List (Repository × V) :=
  services.flatMap fun service => service.discoveries.flatMap Discovery.visits

/-- The number of providers of which no host could be made, and of organizations whose repositories
could not be told. -/
def failures (services : List (Service σ V)) : Nat :=
  services.countP Service.isUnopened +
    (services.flatMap Service.discoveries).countP Discovery.isFailed

/-- How what came of visits is counted up: what a visitor has gathered so far as a list, what one
visit adds to it, and the errors that one visit met. -/
structure Reckoning (β ε V : Type) where
  gathered : β → List ε
  part : V → List ε
  errors : V → Nat

structure Reckoning.Adds (reckoning : Reckoning β ε V) (visits : List (Repository × V))
    (failed : Nat) (before after : Tally β) : Prop where
  repositories : after.repositories = before.repositories + visits.length
  gathered : reckoning.gathered after.gathered =
    reckoning.gathered before.gathered ++ visits.flatMap (reckoning.part ·.2)
  errors : after.errors = before.errors + failed + (visits.map (reckoning.errors ·.2)).sum

namespace Reckoning.Adds

variable {reckoning : Reckoning β ε V} {visits more : List (Repository × V)} {failed lost : Nat}
  {first second third : Tally β}

theorem refl (tally : Tally β) : reckoning.Adds [] 0 tally tally :=
  ⟨rfl, by simp, by simp⟩

theorem trans (adds : reckoning.Adds visits failed first second)
    (further : reckoning.Adds more lost second third) :
    reckoning.Adds (visits ++ more) (failed + lost) first third where
  repositories := by
    rw [further.repositories, adds.repositories, List.length_append, Nat.add_assoc]
  gathered := by
    rw [further.gathered, adds.gathered, List.flatMap_append, List.append_assoc]
  errors := by
    rw [further.errors, adds.errors, List.map_append, List.sum_append]
    omega

theorem failure (tally : Tally β) : reckoning.Adds [] 1 tally tally.addError :=
  ⟨rfl, by simp [Tally.addError], by simp [Tally.addError]⟩

theorem visit {tally : Tally β} {found : β} {repository : Repository} {came : V}
    (gathers : reckoning.gathered found = reckoning.gathered tally.gathered ++ reckoning.part came) :
    reckoning.Adds [(repository, came)] 0 tally
      ⟨tally.repositories + 1, tally.errors + reckoning.errors came, found⟩ :=
  ⟨rfl, by simp [gathers], by simp⟩

end Reckoning.Adds

/-- A host that a run makes for a provider. -/
def Serves (registry : Registry σ) (options : RunOptions) (provider : ProviderConfig)
    (host : Host σ) : Prop :=
  passes options.hostType provider.hostType = true ∧ ∃ state,
    (registry.openHost provider.hostType provider.token provider.baseUrl state).result = .ok host

theorem Serves.opens {registry : Registry σ} {options : RunOptions} {provider : ProviderConfig}
    {host : Host σ} (serves : Serves registry options provider host) : registry.Opens host := by
  obtain ⟨_, state, made⟩ := serves
  exact ⟨_, _, _, state, made⟩

/-- A repository that a run comes to at a host: a selected one of those that the host lists for a
selected organization. -/
def Finds (options : RunOptions) (organizations : List String) (host : Host σ)
    (repository : Repository) : Prop :=
  ∃ organization ∈ organizations, passes options.organization organization = true ∧
    ∃ state listing, (host.discover organization state).result = .ok listing ∧
      repository ∈ listing ∧ selected options repository = true

theorem Finds.onward {options : RunOptions} {organization : String} {organizations : List String}
    {host : Host σ} {repository : Repository} (finds : Finds options organizations host repository) :
    Finds options (organization :: organizations) host repository := by
  obtain ⟨other, member, rest⟩ := finds
  exact ⟨other, List.mem_cons_of_mem _ member, rest⟩

/-- A registry that fails only by report, and whose hosts do when they are asked for repositories. -/
structure Reports (registry : Registry σ) : Prop where
  opening : ∀ hostType token baseUrl state cause,
    (registry.openHost hostType token baseUrl state).result = .error cause →
      ∃ message, cause.hostMessage? = some message
  discovering : ∀ host, registry.Opens host → ∀ organization state cause,
    (host.discover organization state).result = .error cause →
      ∃ message, cause.hostMessage? = some message

section Walk

open Act

variable {fatal : Failure → Prop} {reckoning : Reckoning β ε V} {options : RunOptions}

/-- A visit goes as it should: it keeps what holds of all that has been gathered, and adds to it what
came of the visit. -/
def VisitLeads (fatal : Failure → Prop) (reckoning : Reckoning β ε V) (inv : β → Prop)
    (stay : Repository × V → σ → List Event → σ → Prop) (repository : Repository)
    (visit : β → Act σ (β × Nat)) : Prop :=
  ∀ gathered start, inv gathered → Leads fatal (visit gathered) start fun found events last =>
    inv found.1 ∧ ∃ came, stay (repository, came) start events last ∧
      reckoning.gathered found.1 = reckoning.gathered gathered ++ reckoning.part came ∧
      found.2 = reckoning.errors came

theorem visitRepositories_leads {inv : β → Prop} {stay : Repository × V → σ → List Event → σ → Prop}
    {visit : Repository → β → Act σ (β × Nat)} (repositories : List Repository)
    (visiting : ∀ repository ∈ repositories, selected options repository = true →
      VisitLeads fatal reckoning inv stay repository (visit repository))
    (tally : Tally β) (start : σ) (holds : inv tally.gathered) :
    Leads fatal (visitRepositories options visit repositories tally) start
      fun after events last => inv after.gathered ∧ ∃ visits : List (Repository × V),
        visits.map Prod.fst = repositories.filter (selected options) ∧
        Chain stay visits start events last ∧ reckoning.Adds visits 0 tally after := by
  induction repositories generalizing tally start with
  | nil => exact .pure ⟨holds, [], rfl, .nil, .refl tally⟩
  | cons repository rest ih =>
    obtain ⟨visiting, others⟩ := List.forall_mem_cons.mp visiting
    unfold visitRepositories
    split
    · rename_i passed
      have unselected : selected options repository = false := by
        simp only [selected]
        simp_all
      rw [List.filter_cons_of_neg (by simp [unselected])]
      exact ih others tally start holds
    · rename_i passed
      have chosen : selected options repository = true := by
        simp only [selected]
        by_cases unnamed : options.repository.isEmpty <;> simp_all
      rw [List.filter_cons_of_pos chosen]
      refine .bind ((visiting chosen tally.gathered start holds).weaken ?_)
      rintro ⟨found, errors⟩ events middle ⟨kept, came, stays, gathers, rfl⟩
      refine (ih others _ middle kept).weaken ?_
      rintro after more last ⟨kept, visits, names, chain, adds⟩
      refine ⟨kept, (repository, came) :: visits, by simp [names], .cons stays chain, ?_⟩
      exact (Reckoning.Adds.visit gathers).trans adds

theorem visitOrganizations_leads {inv : β → Prop} {host : Host σ}
    {stay : Repository × V → σ → List Event → σ → Prop}
    {visit : Repository → β → Act σ (β × Nat)}
    (reports : ∀ organization state cause, (host.discover organization state).result = .error cause →
      ∃ message, cause.hostMessage? = some message)
    (organizations : List String)
    (visiting : ∀ repository, Finds options organizations host repository →
      VisitLeads fatal reckoning inv stay repository (visit repository))
    (tally : Tally β) (start : σ) (holds : inv tally.gathered) :
    Leads fatal (visitOrganizations options host visit organizations tally) start
      fun after events last => inv after.gathered ∧ ∃ discoveries : List (Discovery V),
        discoveries.map Discovery.organization =
            organizations.filter (passes options.organization) ∧
          (∀ discovery ∈ discoveries, discovery.Selects options) ∧
          Chain (Discovery.Happens host stay) discoveries start events last ∧
          reckoning.Adds (discoveries.flatMap Discovery.visits)
            (discoveries.countP Discovery.isFailed) tally after := by
  induction organizations generalizing tally start with
  | nil => exact .pure ⟨holds, [], rfl, nofun, .nil, .refl tally⟩
  | cons organization rest ih =>
    have others (repository : Repository) (finds : Finds options rest host repository) :
        VisitLeads fatal reckoning inv stay repository (visit repository) :=
      visiting repository finds.onward
    unfold visitOrganizations
    split
    · rename_i filtered
      rw [List.filter_cons_of_neg (by simpa using filtered)]
      exact ih others tally start holds
    · rename_i filtered
      have passed : passes options.organization organization = true := by simpa using filtered
      rw [List.filter_cons_of_pos passed]
      refine .bind (.log (.bind (.attempt (fun listing events middle granted => ?_)
        fun cause events middle refused => ?_)))
      · have here (repository : Repository) (member : repository ∈ listing)
            (chosen : selected options repository = true) :
            VisitLeads fatal reckoning inv stay repository (visit repository) :=
          visiting repository
            ⟨organization, List.mem_cons_self, passed, start, listing, granted.1, member, chosen⟩
        refine .bind (.log (.bind ((visitRepositories_leads listing here tally middle
          holds).weaken ?_)))
        rintro after more later ⟨kept, visits, names, stays, adds⟩
        refine (ih others after later kept).weaken ?_
        rintro final further last ⟨kept, discoveries, names', selects, chain, adds'⟩
        refine ⟨kept, .listed organization listing visits :: discoveries, ?_, ?_, ?_, ?_⟩
        · simp [names', Discovery.organization]
        · exact List.forall_mem_cons.mpr ⟨names, selects⟩
        · simpa using Chain.cons (Discovery.Happens.listed granted stays) chain
        · simpa [Discovery.visits, Discovery.isFailed] using adds.trans adds'
      · obtain ⟨message, told⟩ := reports organization start cause refused.1
        refine ⟨message, told, .bind (.log ((ih others tally.addError middle holds).weaken ?_))⟩
        rintro final further last ⟨kept, discoveries, names', selects, chain, adds'⟩
        refine ⟨kept, .failed organization message :: discoveries, ?_, ?_, ?_, ?_⟩
        · simp [names', Discovery.organization]
        · exact List.forall_mem_cons.mpr ⟨trivial, selects⟩
        · simpa using Chain.cons (Discovery.Happens.failed refused told) chain
        · rw [List.countP_cons_of_pos rfl, Nat.add_comm]
          exact (Reckoning.Adds.failure tally).trans adds'

theorem visitProviders_leads (between : Nat → β → Prop) (inv : Nat → Host σ → β → Prop)
    {registry : Registry σ} {stay : Host σ → Repository × V → σ → List Event → σ → Prop}
    {visit : Visitor σ β} (reports : Reports registry)
    (skips : ∀ index gathered, between index gathered → between (index + 1) gathered)
    (enters : ∀ index host gathered, between index gathered → inv index host gathered)
    (leaves : ∀ index host gathered, inv index host gathered → between (index + 1) gathered)
    (providers : List ProviderConfig)
    (closing : ∀ provider ∈ providers, ∀ host, Serves registry options provider host →
      ∀ state cause, (host.close state).result = .error cause → fatal cause)
    (visiting : ∀ provider ∈ providers, ∀ host, Serves registry options provider host →
      ∀ repository, Finds options provider.organizations host repository → ∀ index,
        VisitLeads fatal reckoning (inv index host) (stay host) repository
          (visit index host repository))
    (index : Nat) (tally : Tally β) (start : σ) (holds : between index tally.gathered) :
    Leads fatal (visitProviders registry options visit index providers tally) start
      fun after events last => ∃ services : List (Service σ V),
        Selects options providers services ∧
          Chain (Service.Happens registry stay) services start events last ∧
          reckoning.Adds (visits services) (failures services) tally after := by
  induction providers generalizing index tally start with
  | nil => exact .pure ⟨[], ⟨rfl, nofun⟩, .nil, .refl tally⟩
  | cons provider rest ih =>
    obtain ⟨closing, closing'⟩ := List.forall_mem_cons.mp closing
    obtain ⟨visiting, visiting'⟩ := List.forall_mem_cons.mp visiting
    have onward := ih closing' visiting'
    unfold visitProviders
    split
    · rename_i filtered
      refine (onward (index + 1) tally start (skips _ _ holds)).weaken ?_
      rintro after events last ⟨services, ⟨names, selects⟩, rest⟩
      refine ⟨services, ⟨?_, selects⟩, rest⟩
      rw [List.filter_cons_of_neg (by simpa using filtered), names]
    · rename_i passed
      have chosen : passes options.hostType provider.hostType = true := by simpa using passed
      refine .bind (.attempt (fun host opening opened granted => ?_)
        fun cause events middle refused => ?_)
      · have serves : Serves registry options provider host := ⟨chosen, start, granted.1⟩
        have walk := visitOrganizations_leads (reports.discovering host serves.opens)
          provider.organizations fun repository finds => visiting host serves repository finds index
        refine .bind (.log (.bind (.ensuring (closing host serves)
          ((walk tally opened (enters index host _ holds)).weaken ?_))))
        rintro after doing left ⟨kept, discoveries, names, selects, happens, adds⟩
        intro ending later closed
        refine (onward (index + 1) after later (leaves index host _ kept)).weaken ?_
        rintro final further last ⟨services, ⟨names', selects'⟩, chain, adds'⟩
        refine ⟨.served provider host discoveries :: services, ⟨?_, ?_⟩, ?_, ?_⟩
        · rw [List.filter_cons_of_pos (by exact chosen), ← names']
          rfl
        · exact List.forall_mem_cons.mpr ⟨⟨names, selects⟩, selects'⟩
        · simpa using Chain.cons (Service.Happens.served granted happens closed) chain
        · simpa [visits, failures, Service.discoveries, Service.isUnopened, Nat.add_left_comm] using
            adds.trans adds'
      · obtain ⟨message, told⟩ := reports.opening _ _ _ start cause refused.1
        refine ⟨message, told, .bind (.log ((onward (index + 1) tally.addError middle
          (skips _ _ holds)).weaken ?_))⟩
        rintro final further last ⟨services, ⟨names', selects'⟩, chain, adds'⟩
        refine ⟨.unopened provider message :: services, ⟨?_, ?_⟩, ?_, ?_⟩
        · rw [List.filter_cons_of_pos (by exact chosen), ← names']
          rfl
        · exact List.forall_mem_cons.mpr ⟨trivial, selects'⟩
        · simpa using Chain.cons (Service.Happens.unopened refused told) chain
        · have counted : failures (.unopened provider message :: services : List (Service σ V)) =
              1 + failures services := by
            rw [failures, List.countP_cons_of_pos rfl, Nat.add_comm _ 1, Nat.add_assoc]
            rfl
          rw [counted]
          exact (Reckoning.Adds.failure tally).trans adds'

end Walk

end Run

end InfraPins
