import InfraPins.Proofs.Run.Course

/-! The account of a run of updaters. At each visited repository every updater is passed over or asked,
and what it is asked for it gives or refuses; a run comes to what was given, and counts what was
refused along with the providers and organizations that failed. -/

namespace InfraPins.Run

open Act

variable {σ : Type} {fatal : Failure → Prop}

/-- What came of an updater at a repository: it was not asked for pull requests, it gave some, or it
failed. -/
inductive Attempt where
  | passed
  | gave (requests : List PullRequest)
  | failed (message : String)

namespace Attempt

def requests : Attempt → List PullRequest
  | .gave requests => requests
  | _ => []

def isFailed : Attempt → Bool
  | .failed _ => true
  | _ => false

end Attempt

/-- Whether an updater passes the filter and is enabled. -/
def wants (options : RunOptions) (config : Config) (updater : Updater σ) : Bool :=
  passes options.updater updater.name && (config.updater updater.name).enabled

def consult (updater : Updater σ) (host : Host σ) (repository : Repository) : Act σ Bool := do
  Act.record (.detected updater.name repository)
  updater.detect host repository

def order (options : RunOptions) (config : Config) (updater : Updater σ) (host : Host σ)
    (repository : Repository) : Act σ (List PullRequest) := do
  let wanted := updateOptions options (config.updater updater.name)
  Act.record (.updated updater.name repository wanted)
  updater.createPullRequests host repository wanted

inductive Attempt.Happens (options : RunOptions) (config : Config) (host : Host σ)
    (repository : Repository) : Updater σ × Attempt → σ → List Event → σ → Prop where
  | unwanted {updater : Updater σ} {start : σ} (unwanted : wants options config updater = false) :
      Happens options config host repository (updater, .passed) start [] start
  | undetected {updater : Updater σ} {start last : σ} {events : List Event}
      (wanted : wants options config updater = true)
      (detects : (consult updater host repository).Comes start (.ok false) events last) :
      Happens options config host repository (updater, .passed) start events last
  | gave {updater : Updater σ} {start middle last : σ} {events more : List Event}
      {requests : List PullRequest} (wanted : wants options config updater = true)
      (detects : (consult updater host repository).Comes start (.ok true) events middle)
      (gives : (order options config updater host repository).Comes middle (.ok requests) more last) :
      Happens options config host repository (updater, .gave requests) start (events ++ more) last
  | failed {updater : Updater σ} {start middle last : σ} {events more : List Event}
      {cause : Failure} {message : String} (wanted : wants options config updater = true)
      (detects : (consult updater host repository).Comes start (.ok true) events middle)
      (fails : (order options config updater host repository).Comes middle (.error cause) more last)
      (told : cause.updateMessage? = some message) :
      Happens options config host repository (updater, .failed message) start (events ++ more) last

/-- How a visit went: every updater had its turn. -/
def VisitHappens (updaters : List (Updater σ)) (options : RunOptions) (config : Config)
    (host : Host σ) (visit : Repository × List (Updater σ × Attempt)) (start : σ)
    (events : List Event) (last : σ) : Prop :=
  visit.2.map Prod.fst = updaters ∧
    Chain (Attempt.Happens options config host visit.1) visit.2 start events last

/-- An updater that can always tell whether a repository is one for it, and fails only as a host or
an update does. -/
structure Dependable (updater : Updater σ) (host : Host σ) : Prop where
  detecting : ∀ repository state, ∃ found, (updater.detect host repository state).result = .ok found
  creating : ∀ repository options state cause,
    (updater.createPullRequests host repository options state).result = .error cause →
      ∃ message, cause.updateMessage? = some message

/-- What came of visits is the pull requests, and the failures of updaters are its errors. -/
def reckoning (σ : Type) :
    Reckoning (List PullRequest) PullRequest (List (Updater σ × Attempt)) where
  gathered := id
  part attempts := (attempts.map Prod.snd).flatMap Attempt.requests
  errors attempts := (attempts.map Prod.snd).countP Attempt.isFailed

theorem update_of_unwanted {options : RunOptions} {config : Config} {updater : Updater σ}
    {host : Host σ} {repository : Repository} (unwanted : wants options config updater = false) :
    update options config updater host repository = pure ([], 0) := by
  have filtered : (!passes options.updater updater.name ||
      !(config.updater updater.name).enabled) = true := by
    cases filtered : passes options.updater updater.name <;> simp_all [wants]
  exact if_pos filtered

theorem update_of_wanted {options : RunOptions} {config : Config} {updater : Updater σ}
    {host : Host σ} {repository : Repository} (wanted : wants options config updater = true) :
    update options config updater host repository = (do
      if (← consult updater host repository) then
        Act.log .info ("[" ++ updater.name ++ "] " ++ "Detected in " ++ repository.fullName)
        match (← (order options config updater host repository).attempt Failure.updateMessage?) with
        | .error message =>
          Act.log .error ("[" ++ updater.name ++ "] " ++ "Failed to update " ++ repository.fullName
            ++ ": " ++ message)
          return ([], 1)
        | .ok requests =>
          requests.forM fun request => Act.log .info ("  Created PR #" ++ request.id.plain ++ ": "
            ++ request.title.plain ++ " (" ++ request.url.plain ++ ")")
          return (requests, 0)
      else return ([], 0)) := by
  have passed : ¬ (!passes options.updater updater.name ||
      !(config.updater updater.name).enabled) = true := by
    simpa [wants] using wanted
  rw [consult, bind_assoc]
  exact if_neg passed

private theorem forM_log_leads {items : List α} {level : Level} {text : α → String} {start : σ} :
    Leads fatal (items.forM fun item => (Act.log level (text item) : Act σ Unit)) start
      fun _ events last => events = [] ∧ last = start := by
  induction items with
  | nil => exact .pure ⟨rfl, rfl⟩
  | cons item items ih => exact .bind (.log ih)

theorem update_leads {options : RunOptions} {config : Config} {updater : Updater σ} {host : Host σ}
    (reports : Dependable updater host) (repository : Repository) (start : σ) :
    Leads fatal (update options config updater host repository) start fun found events last =>
      ∃ attempt : Attempt, Attempt.Happens options config host repository (updater, attempt)
          start events last ∧
        found = (attempt.requests, if attempt.isFailed then 1 else 0) := by
  cases wanted : wants options config updater with
  | false =>
    rw [update_of_unwanted wanted]
    exact .pure ⟨.passed, .unwanted wanted, rfl⟩
  | true =>
    rw [update_of_wanted wanted]
    have detects : Leads fatal (consult updater host repository) start fun found events last =>
        (consult updater host repository).Comes start (.ok found) events last := by
      refine ⟨fun cause refused => ?_, fun _ _ _ came => came⟩
      obtain ⟨found, told⟩ := reports.detecting repository start
      cases told.symm.trans refused
    refine .bind (detects.weaken fun detected events middle detects => ?_)
    cases detected with
    | false => exact .pure ⟨.passed, .undetected wanted (by simpa using detects), rfl⟩
    | true =>
      refine .bind (.log (.bind (.attempt (fun requests more last gives => ?_)
        fun cause more last fails => ?_)))
      · refine .bind (forM_log_leads.weaken ?_)
        rintro _ _ _ ⟨rfl, rfl⟩
        exact .pure ⟨.gave requests, by simpa using .gave wanted detects gives, rfl⟩
      · obtain ⟨message, told⟩ := reports.creating repository _ middle cause fails.1
        exact ⟨message, told, .bind (.log (.pure
          ⟨.failed message, by simpa using .failed wanted detects fails told, rfl⟩))⟩

theorem updateAll_leads {options : RunOptions} {config : Config} {updaters : List (Updater σ)}
    {host : Host σ} (reports : ∀ updater ∈ updaters, Dependable updater host)
    (repository : Repository) (start : σ) :
    Leads fatal (updateAll options config host repository updaters) start fun found events last =>
      ∃ attempts : List (Updater σ × Attempt), attempts.map Prod.fst = updaters ∧
        Chain (Attempt.Happens options config host repository) attempts start events last ∧
        found = ((attempts.map Prod.snd).flatMap Attempt.requests,
          (attempts.map Prod.snd).countP Attempt.isFailed) := by
  induction updaters generalizing start with
  | nil => exact .pure ⟨[], rfl, .nil, rfl⟩
  | cons updater rest ih =>
    obtain ⟨reports, others⟩ := List.forall_mem_cons.mp reports
    refine .bind ((update_leads reports repository start).weaken ?_)
    rintro found events middle ⟨attempt, happens, rfl⟩
    refine .bind ((ih others middle).weaken ?_)
    rintro found more last ⟨attempts, names, chain, rfl⟩
    refine .pure ⟨(updater, attempt) :: attempts, by simp [names], ?_, ?_⟩
    · simpa using Chain.cons happens chain
    · cases failed : attempt.isFailed <;> simp [failed, Nat.add_comm]

/-- What came of the updaters in all visits. -/
def attempts (services : List (Service σ (List (Updater σ × Attempt)))) : List Attempt :=
  (visits services).flatMap fun visit => visit.2.map Prod.snd

/-- What a course adds up to: the number of visits, all pull requests, and the number of providers,
organizations and updates that failed. -/
def account (services : List (Service σ (List (Updater σ × Attempt)))) : RunSummary where
  repositories := (visits services).length
  pullRequests := (attempts services).flatMap Attempt.requests
  errors := failures services + (attempts services).countP Attempt.isFailed

def visitor (updaters : List (Updater σ)) (config : Config) (options : RunOptions) :
    Visitor σ (List PullRequest) := fun _ host repository gathered => do
  let (requests, errors) ← updateAll options config host repository updaters
  return (gathered ++ requests, errors)

theorem run_eq (registry : Registry σ) (updaters : List (Updater σ)) (config : Config)
    (options : RunOptions) :
    run registry updaters config options = (do
      let tally ← visitProviders registry options (visitor updaters config options) 0
        config.providers ⟨0, 0, []⟩
      Act.log .info ("Run complete: " ++ toString tally.repositories ++ " repos processed, "
        ++ toString tally.gathered.length ++ " PRs created, " ++ toString tally.errors ++ " errors")
      return ⟨tally.repositories, tally.gathered, tally.errors⟩) := rfl

/-- A registry, hosts and updaters that fail only by report. -/
structure Sound (registry : Registry σ) (updaters : List (Updater σ)) : Prop where
  reports : Reports registry
  closing : ∀ host, registry.Opens host → ∀ state cause, (host.close state).result = .error cause →
    ∃ message, cause.hostMessage? = some message
  updating : ∀ host, registry.Opens host → ∀ updater ∈ updaters, Dependable updater host

/-- A registry whose hosts can be let go of without a failure. -/
def LetsGo (registry : Registry σ) : Prop :=
  ∀ host, registry.Opens host → ∀ state, (host.close state).result = .ok ()

/-- The failure of letting go of a host that was made for a provider. -/
def ClosingFailed (registry : Registry σ) (options : RunOptions) (providers : List ProviderConfig)
    (cause : Failure) : Prop :=
  ∃ provider ∈ providers, ∃ host, Serves registry options provider host ∧
    ∃ state, (host.close state).result = .error cause

theorem LetsGo.not_closingFailed {registry : Registry σ} (lets : LetsGo registry)
    {options : RunOptions} {providers : List ProviderConfig} {cause : Failure} :
    ¬ ClosingFailed registry options providers cause := by
  rintro ⟨provider, _, host, serves, state, failed⟩
  cases (lets host serves.opens state).symm.trans failed

/-- A run comes to its account, unless a host cannot be let go of: that failure alone ends it. -/
theorem run_leads {registry : Registry σ} {updaters : List (Updater σ)}
    (sound : Sound registry updaters) (config : Config) (options : RunOptions) (start : σ) :
    Leads (ClosingFailed registry options config.providers)
      (run registry updaters config options) start
      fun summary events last => ∃ services, Selects options config.providers services ∧
        Chain (Service.Happens registry (VisitHappens updaters options config)) services
          start events last ∧
        summary = account services := by
  have visiting : ∀ provider ∈ config.providers, ∀ host, Serves registry options provider host →
      ∀ repository, Finds options provider.organizations host repository → ∀ index : Nat,
        VisitLeads (ClosingFailed registry options config.providers) (reckoning σ) (fun _ => True)
          (VisitHappens updaters options config host) repository
          (visitor updaters config options index host repository) := by
    intro _ _ host serves repository _ index gathered state _
    refine .bind ((updateAll_leads (sound.updating host serves.opens) repository state).weaken ?_)
    rintro found events last ⟨attempts, names, chain, rfl⟩
    exact .pure ⟨trivial, attempts, by simpa [VisitHappens] using ⟨names, chain⟩, rfl, rfl⟩
  rw [run_eq]
  refine .bind ((visitProviders_leads (fun _ _ => True) (fun _ _ _ => True) sound.reports
    (fun _ _ _ => trivial) (fun _ _ _ _ => trivial) (fun _ _ _ _ => trivial) config.providers
    (fun provider member host serves state cause failed =>
      ⟨provider, member, host, serves, state, failed⟩)
    visiting 0 ⟨0, 0, []⟩ start trivial).weaken ?_)
  rintro ⟨repositories, errors, gathered⟩ events last ⟨services, selects, chain, adds⟩
  refine .bind (.log (.pure ⟨services, selects, by simpa using chain, ?_⟩))
  simp only [account, attempts, RunSummary.mk.injEq]
  refine ⟨by simpa using adds.repositories, ?_, ?_⟩
  · have total : gathered = _ := adds.gathered
    simp [total, reckoning, List.flatMap_assoc]
  · have total : errors = _ := adds.errors
    simp [total, reckoning, List.countP_flatMap, Function.comp_def]

end InfraPins.Run
