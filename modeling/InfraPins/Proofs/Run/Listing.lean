import InfraPins.Proofs.Run.Course
import InfraPins.Proofs.Update.Protocol
import InfraPins.Proofs.Update.Replies

namespace InfraPins.Run

open Act

variable {σ : Type} {host : Host σ} {replies : Replies} {organization : String} {memo : TagMemo}
  {fatal : Failure → Prop} {start : σ} {repository : Repository}

/-- What a status and a task are compared by: the name, the file, the current version and the version
to upgrade to. -/
structure Entry where
  name : String
  path : String
  current : String
  latest : Datum

def Entry.ofStatus (status : DependencyStatus) : Entry :=
  ⟨status.name, status.path, status.current, status.latest⟩

def Entry.ofTask (task : UpgradeTask) : Entry :=
  ⟨task.dependency.name, task.dependency.path, task.dependency.current, .text task.newVersion⟩

/-- What is listed of a repository is said of it, and is outdated where a plan of it, made at any
time, has an upgrade. -/
def Agrees (host : Host σ) (repository : Repository) (statuses : List DependencyStatus) : Prop :=
  (∀ status ∈ statuses,
    status.organization = repository.organization ∧ status.repository = repository.name) ∧
  ∃ tasks, (∀ state, (Update.plan host repository state).result = .ok tasks) ∧
    (statuses.filter (·.needsUpgrade)).map Entry.ofStatus = tasks.map Entry.ofTask

/-- How a visit of a listing goes: what it shows agrees with the plan. -/
def ListHappens (host : Host σ) (visit : Repository × List DependencyStatus) (_ : σ)
    (_ : List Event) (_ : σ) : Prop :=
  Agrees host visit.1 visit.2

private theorem isNewerTag_empty {current : String} (legible : Version.Legible current.toList) :
    Version.isNewerTag (.text current) (.text "") = .ok false := by
  have empty : Version.isSemanticLike [] = .ok false := by decide +kernel
  have never : Version.isNewer current.toList [] = .ok false := by
    cases Version.version? current.toList <;>
      simp [Version.isNewer, legible.isSemanticLike_eq, empty, bind, Except.bind, pure, Except.pure]
  simp [Version.isNewerTag, Failure.ofVersion, never, Except.mapError]

private theorem bumpName_of_legible {current latest : String}
    (legible : Version.Legible current.toList) (legible' : Version.Legible latest.toList) :
    ∃ name, bumpName current (.text latest) = .ok name := by
  obtain ⟨bump, told⟩ := Version.bump?_of_legible legible legible'
  exact ⟨_, by simp only [bumpName, Datum.plain, Failure.ofVersion, told, Except.mapError]; rfl⟩

/-- With the same tags, a dependency needs an upgrade when there is one to plan, to the version that is
shown as the latest. -/
theorem needsUpgrade_of_legible {current : String} {tags : List Datum}
    (legible : Version.Legible current.toList) (good : Update.LegibleTags tags) :
    ∃ version?, Plan.upgrade? current tags = .ok version? ∧
      needsUpgrade current (tags.head?.getD (.text "")) = .ok version?.isSome ∧
      ∀ version, version? = some version →
        tags.head?.getD (.text "") = .text version ∧ Version.Legible version.toList := by
  cases tags with
  | nil => exact ⟨none, rfl, rfl, nofun⟩
  | cons latest rest =>
    obtain ⟨text, rfl, legible'⟩ := good latest List.mem_cons_self
    by_cases same : Datum.text text = .text current
    · exact ⟨none, by simp [Plan.upgrade?, same], by simp [needsUpgrade, same], nofun⟩
    · obtain ⟨newer, compared⟩ := Version.isNewerTag_of_legible legible legible'
      have planned : Plan.upgrade? current (.text text :: rest) =
          .ok (if newer then some text else none) := by
        simp only [Plan.upgrade?, same, compared]
        cases newer <;> rfl
      have needed : needsUpgrade current (.text text) = .ok newer := by
        by_cases empty : text = ""
        · subst empty
          obtain rfl := Except.ok.inj ((isNewerTag_empty legible).symm.trans compared)
          rfl
        · have truthy : (Datum.text text).isTruthy = true := by
            simpa [Datum.isTruthy] using empty
          simp only [needsUpgrade, truthy, same, compared]
          rfl
      refine ⟨_, planned, by cases newer <;> exact needed, fun version found => ?_⟩
      cases newer <;> cases found
      exact ⟨rfl, legible'⟩

theorem status_of_legible {dependency : Dependency} {tags : List Datum}
    (legible : Version.Legible dependency.current.toList) (good : Update.LegibleTags tags) :
    ∃ shown version?, status repository dependency tags = .ok shown ∧
      Plan.upgrade? dependency.current tags = .ok version? ∧
      shown.needsUpgrade = version?.isSome ∧
      ∀ version, version? = some version → Entry.ofStatus shown =
        ⟨dependency.name, dependency.path, dependency.current, .text version⟩ := by
  obtain ⟨version?, planned, needed, newest⟩ := needsUpgrade_of_legible legible good
  cases version? with
  | none =>
    refine ⟨_, none, by simp only [status, needed]; rfl, planned, rfl, nofun⟩
  | some version =>
    obtain ⟨latest, legible'⟩ := newest version rfl
    obtain ⟨name, named⟩ := bumpName_of_legible legible legible'
    rw [latest] at needed
    refine ⟨_, some version, by simp only [status, latest, needed, named]; rfl, planned, rfl, ?_⟩
    intro other same
    obtain rfl := Option.some.inj same
    rfl

/-- Statuses that scan results have, with the tags of their sources. -/
def Shows (replies : Replies) (repository : Repository) :
    List ScanResult → List DependencyStatus → Prop :=
  List.Forall₂ fun result shown => status repository result.dependency
    (replies.sourceTags repository.organization result.dependency.source) = .ok shown

/-- A status is said of the repository that it was made for. -/
theorem status_of_eq_ok {dependency : Dependency} {tags : List Datum} {shown : DependencyStatus}
    (came : status repository dependency tags = .ok shown) :
    shown.organization = repository.organization ∧ shown.repository = repository.name := by
  obtain ⟨needed, _, came⟩ := Result.bind_eq_ok.mp came
  by_cases upgrade : needed = true
  · rw [if_pos upgrade] at came
    obtain ⟨bump, _, came⟩ := Result.bind_eq_ok.mp came
    obtain rfl := Except.ok.inj came
    exact ⟨rfl, rfl⟩
  · rw [if_neg upgrade] at came
    obtain rfl := Except.ok.inj came
    exact ⟨rfl, rfl⟩

theorem Shows.named {scanned : List ScanResult} {shown : List DependencyStatus}
    (shows : Shows replies repository scanned shown) :
    ∀ status ∈ shown,
      status.organization = repository.organization ∧ status.repository = repository.name := by
  induction shows with
  | nil => exact nofun
  | cons came _ ih => exact List.forall_mem_cons.mpr ⟨status_of_eq_ok came, ih⟩

/-- Looking up the statuses of scan results with a valid memo brings what the sources' tags say. -/
theorem statuses_leads (gives : host.Gives replies)
    (valid : memo.Valid replies repository.organization) {scanned : List ScanResult}
    (legible : Update.AllLegible scanned) :
    Leads fatal (statuses host repository.organization repository scanned memo) start
      fun found _ _ => Shows replies repository scanned found.1 ∧
        found.2.Valid replies repository.organization := by
  induction scanned generalizing memo start with
  | nil => exact .pure ⟨.nil, valid⟩
  | cons result scanned ih =>
    obtain ⟨readable, others⟩ := List.forall_mem_cons.mp legible
    refine .bind ((Update.resolve_leads gives valid result.dependency.source).weaken ?_)
    rintro ⟨tags, memo'⟩ _ _ ⟨same, valid'⟩
    change tags = _ at same
    have good : Update.LegibleTags tags := by
      rw [same]
      exact Update.legible_sourceTags gives _
    obtain ⟨shown, _, told, _⟩ := status_of_legible readable good
    refine .bind (.lift (fun cause failed => ?_) fun first came => ?_)
    · cases told.symm.trans failed
    · refine .bind ((ih valid' others).weaken ?_)
      rintro ⟨more, memo''⟩ _ _ ⟨shows, valid''⟩
      exact .pure ⟨.cons (same ▸ came) shows, valid''⟩

private theorem tasks_cons (answers : Plan.Answers) (result : ScanResult)
    (scanned : List ScanResult) :
    Plan.tasks answers (result :: scanned) = (do
      let first ← Plan.task? answers result
      let more ← Plan.tasks answers scanned
      return first.toList ++ more) := by
  simp only [Plan.tasks, List.mapM_cons, bind_assoc, pure_bind]
  congr 1
  funext first
  congr 1
  funext more
  cases first <;> rfl

/-- The statuses that need an upgrade are those of the tasks that are planned with the same tags. -/
theorem tasks_of_shows (gives : host.Gives replies) {scanned : List ScanResult}
    {shown : List DependencyStatus} (shows : Shows replies repository scanned shown)
    (legible : Update.AllLegible scanned) :
    ∃ tasks, (shown.filter (·.needsUpgrade)).map Entry.ofStatus = tasks.map Entry.ofTask ∧
      ∀ computed, Update.Planned replies repository.organization scanned computed →
        computed = .ok tasks := by
  induction shows with
  | nil => exact ⟨[], rfl, fun _ ⟨_, _, same⟩ => same⟩
  | @cons result first scanned more came shows ih =>
    obtain ⟨readable, others⟩ := List.forall_mem_cons.mp legible
    obtain ⟨tasks, agree, planned⟩ := ih others
    obtain ⟨shown, version?, told, decided, needed, entry⟩ := status_of_legible readable
      (Update.legible_sourceTags gives result.dependency.source)
    obtain rfl := Except.ok.inj (told.symm.trans came)
    refine ⟨(version?.map fun version => ⟨result.dependency, version, result.content⟩).toList ++ tasks,
      ?_, ?_⟩
    · cases version? with
      | none => simpa [needed] using agree
      | some version => simp [needed, agree, entry version rfl, Entry.ofTask]
    · rintro _ ⟨answers, fits, rfl⟩
      obtain ⟨tagged, fits⟩ := List.forall_mem_cons.mp fits
      have task : Plan.task? answers result =
          .ok (version?.map fun version => ⟨result.dependency, version, result.content⟩) := by
        simp only [Plan.task?, tagged, decided]
        rfl
      rw [tasks_cons, task, planned _ ⟨answers, fits, rfl⟩]
      rfl

theorem agrees_of_shows (gives : host.Gives replies) {scanned : List ScanResult}
    {shown : List DependencyStatus}
    (scan : ∀ state, (Update.scanRepository host repository state).result = .ok scanned)
    (legible : Update.AllLegible scanned) (shows : Shows replies repository scanned shown) :
    Agrees host repository shown := by
  obtain ⟨tasks, agree, planned⟩ := tasks_of_shows gives shows legible
  exact ⟨shows.named, tasks, fun state => planned _ (Update.plan_result gives scan state), agree⟩

/-- Why a listing can fail: a plan of a repository that it comes to fails for the same reason whenever
it is made, or a host that was made for a provider cannot be let go of. -/
def Escapes (registry : Registry σ) (options : RunOptions) (providers : List ProviderConfig)
    (cause : Failure) : Prop :=
  ∃ provider ∈ providers, ∃ host, Serves registry options provider host ∧
    ((∃ repository, Finds options provider.organizations host repository ∧
        ∀ state, (Update.plan host repository state).result = .error cause) ∨
      ∃ state, (host.close state).result = .error cause)

/-- The memo at hand is of a provider before a place. -/
def Listed.Before (index : Nat) (listed : Listed) : Prop :=
  ∀ index' organization memo, listed.memo = some (index', organization, memo) → index' < index

/-- The memo at hand is of a provider before a place, or at it and then valid. -/
def Listed.Valid (replies : Replies) (index : Nat) (listed : Listed) : Prop :=
  ∀ index' organization memo, listed.memo = some (index', organization, memo) →
    index' < index ∨ (index' = index ∧ memo.Valid replies organization)

private theorem Listed.Valid.before {listed : Listed} {index : Nat}
    (valid : listed.Valid replies index) : listed.Before (index + 1) := by
  intro index' organization memo kept
  rcases valid _ _ _ kept with before | ⟨rfl, _⟩
  · exact Nat.lt_succ_of_lt before
  · exact Nat.lt_succ_self _

private theorem Listed.Valid.memoFor {listed : Listed} {index : Nat}
    (valid : listed.Valid replies index) :
    (listed.memoFor index organization).Valid replies organization := by
  unfold Listed.memoFor
  split
  · rename_i index' organization' memo kept
    split
    · rename_i same
      obtain ⟨rfl, rfl⟩ := same
      rcases valid _ _ _ kept with before | ⟨_, valid⟩
      · exact absurd before (Nat.lt_irrefl _)
      · exact valid
    · exact TagMemo.valid_empty
  · exact TagMemo.valid_empty

theorem listRepository_leads (gives : host.Gives replies)
    (escapes : ∀ cause, (∀ state, (Update.plan host repository state).result = .error cause) →
      fatal cause) {index : Nat} {listed : Listed} (valid : listed.Valid replies index) :
    Leads fatal (listRepository false index host repository listed) start
      fun found events last => found.1.Valid replies index ∧ ∃ shown,
        ListHappens host (repository, shown) start events last ∧
        found.1.statuses = listed.statuses ++ shown ∧ found.2 = 0 := by
  have settles : Settles (Update.scanRepository host repository) Update.AllLegible :=
    Update.scanRepository_settles gives
  obtain ⟨result, always, legible⟩ := settles
  cases result with
  | error cause =>
    refine .bind ⟨fun other failed => ?_, fun _ _ _ came => ?_⟩
    · obtain rfl := Except.error.inj ((always start).symm.trans failed)
      exact escapes cause (Update.plan_result_of_error always)
    · cases (always start).symm.trans came.1
  | ok scanned =>
    refine .bind ⟨fun other failed => ?_, fun results _ middle came => ?_⟩
    · cases (always start).symm.trans failed
    obtain rfl : scanned = results := Except.ok.inj ((always start).symm.trans came.1)
    have readable := legible scanned rfl
    split
    · rename_i none
      obtain rfl := List.isEmpty_iff.mp none
      exact .pure ⟨valid, [], agrees_of_shows gives always readable .nil, by simp, rfl⟩
    · refine .bind ((statuses_leads gives valid.memoFor readable).weaken ?_)
      rintro ⟨shown, memo⟩ _ _ ⟨shows, valid'⟩
      refine .pure ⟨?_, shown, agrees_of_shows gives always readable shows, rfl, rfl⟩
      intro index' organization other kept
      cases kept
      exact .inr ⟨rfl, valid'⟩

/-- A report without what is up to date. -/
def DependencyReport.onlyOutdated (report : DependencyReport) : DependencyReport :=
  { report with dependencies := report.dependencies.filter (·.needsUpgrade) }

/-- What a listing gathers besides its memo. -/
def listing : Reckoning Listed DependencyStatus (List DependencyStatus) where
  gathered := Listed.statuses
  part := id
  errors _ := 0

theorem list_leads {registry : Registry σ} {replies : Host σ → Replies}
    (opening : ∀ hostType token baseUrl state cause,
      (registry.openHost hostType token baseUrl state).result = .error cause →
        ∃ message, cause.hostMessage? = some message)
    (gives : ∀ host, registry.Opens host → host.Gives (replies host)) (config : Config)
    (options : RunOptions) :
    Leads (Escapes registry options config.providers) (list registry config options false) start
      fun report events last => ∃ services : List (Service σ (List DependencyStatus)),
        Selects options config.providers services ∧
        Chain (Service.Happens registry ListHappens) services start events last ∧
        report = ⟨(visits services).length, (visits services).flatMap Prod.snd, failures services⟩ := by
  have reports : Reports registry := by
    refine ⟨opening, fun host opens organization state cause failed => ?_⟩
    have reply := (gives host opens).steady (.discover organization) state
    exact (gives host opens).reporting _ cause (reply.symm.trans failed)
  have visiting : ∀ provider ∈ config.providers, ∀ host, Serves registry options provider host →
      ∀ repository, Finds options provider.organizations host repository → ∀ index,
        VisitLeads (Escapes registry options config.providers) listing
          (fun listed => listed.Valid (replies host) index) (ListHappens host) repository
          (listRepository false index host repository) := by
    intro provider member host serves repository finds index listed state valid
    refine listRepository_leads (gives host serves.opens) (fun cause failed => ?_) valid
    exact ⟨provider, member, host, serves, .inl ⟨repository, finds, failed⟩⟩
  refine .bind ((visitProviders_leads Listed.Before
    (fun index host listed => listed.Valid (replies host) index) reports
    (fun _ _ before _ _ _ kept => Nat.lt_succ_of_lt (before _ _ _ kept))
    (fun _ _ _ before _ _ _ kept => .inl (before _ _ _ kept)) (fun _ _ _ valid => valid.before)
    config.providers (fun provider member host serves state cause failed =>
      ⟨provider, member, host, serves, .inr ⟨state, failed⟩⟩)
    visiting 0 ⟨0, 0, ⟨[], none⟩⟩ start nofun).weaken ?_)
  rintro ⟨repositories, errors, gathered⟩ events last ⟨services, selects, chain, adds⟩
  refine .bind (.log (.pure ⟨services, selects, by simpa using chain, ?_⟩))
  have total : gathered.statuses = _ := adds.gathered
  have counted : errors = _ := adds.errors
  simp only [DependencyReport.mk.injEq]
  refine ⟨by simpa using adds.repositories, ?_, ?_⟩
  · simp [total, listing]
  · simp [counted, listing]

private def Listed.onlyOutdated (listed : Listed) : Listed :=
  { listed with statuses := listed.statuses.filter (·.needsUpgrade) }

private def Tally.map {β γ : Type} (form : β → γ) (tally : Tally β) : Tally γ :=
  ⟨tally.repositories, tally.errors, form tally.gathered⟩

section Form

variable {β γ : Type} {form : β → γ} {options : RunOptions}

private theorem ensuring_map {α α' : Type} (change : α → α') (act : Act σ α) (last : Act σ Unit) :
    (change <$> act).ensuring last = change <$> act.ensuring last := by
  funext state
  simp only [map_eq_pure_bind, Act.ensuring, bind_apply]
  obtain ⟨result, events, middle⟩ := act state
  cases result <;> cases ended : (last middle).result <;> simp [ended, pure_apply]

private theorem visitRepositories_map {visit : Repository → β → Act σ (β × Nat)}
    {visit' : Repository → γ → Act σ (γ × Nat)}
    (same : ∀ repository gathered, visit' repository (form gathered) =
      (fun found : β × Nat => (form found.1, found.2)) <$> visit repository gathered)
    (repositories : List Repository) (tally : Tally β) :
    visitRepositories options visit' repositories (tally.map form) =
      Tally.map form <$> visitRepositories options visit repositories tally := by
  induction repositories generalizing tally with
  | nil => rfl
  | cons repository rest ih =>
    simp only [visitRepositories]
    split
    · exact ih tally
    · simp only [map_bind, Tally.map, same, bind_map_left]
      congr 1
      funext found
      exact ih ⟨tally.repositories + 1, tally.errors + found.2, found.1⟩

private theorem visitOrganizations_map {visit : Repository → β → Act σ (β × Nat)}
    {visit' : Repository → γ → Act σ (γ × Nat)}
    (same : ∀ repository gathered, visit' repository (form gathered) =
      (fun found : β × Nat => (form found.1, found.2)) <$> visit repository gathered)
    (organizations : List String) (tally : Tally β) :
    visitOrganizations options host visit' organizations (tally.map form) =
      Tally.map form <$> visitOrganizations options host visit organizations tally := by
  induction organizations generalizing tally with
  | nil => rfl
  | cons organization rest ih =>
    simp only [visitOrganizations]
    split
    · exact ih tally
    · simp only [map_bind]
      congr 1
      funext _
      congr 1
      funext answer
      cases answer with
      | error message =>
        simp only [map_bind]
        congr 1
        funext _
        exact ih tally.addError
      | ok listing =>
        simp only [map_bind, visitRepositories_map same, bind_map_left]
        congr 1
        funext _
        congr 1
        funext after
        exact ih after

private theorem visitProviders_map {registry : Registry σ} {visit : Visitor σ β}
    {visit' : Visitor σ γ}
    (same : ∀ index host repository gathered, visit' index host repository (form gathered) =
      (fun found : β × Nat => (form found.1, found.2)) <$> visit index host repository gathered)
    (providers : List ProviderConfig) (index : Nat) (tally : Tally β) :
    visitProviders registry options visit' index providers (tally.map form) =
      Tally.map form <$> visitProviders registry options visit index providers tally := by
  induction providers generalizing index tally with
  | nil => rfl
  | cons provider rest ih =>
    simp only [visitProviders]
    split
    · exact ih (index + 1) tally
    · simp only [map_bind]
      congr 1
      funext answer
      cases answer with
      | error message =>
        simp only [map_bind]
        congr 1
        funext _
        exact ih (index + 1) tally.addError
      | ok host =>
        simp only [map_bind, visitOrganizations_map (same index host), ensuring_map, bind_map_left]
        congr 1
        funext _
        congr 1
        funext after
        exact ih (index + 1) after

end Form

private theorem listRepository_onlyOutdated (index : Nat) (host : Host σ) (repository : Repository)
    (listed : Listed) :
    listRepository true index host repository listed.onlyOutdated =
      (fun found : Listed × Nat => (found.1.onlyOutdated, found.2)) <$>
        listRepository false index host repository listed := by
  simp only [listRepository, map_bind]
  congr 1
  funext scanned
  split
  · rfl
  · simp only [map_bind]
    congr 1
    funext found
    simp [Listed.onlyOutdated]

private def Tally.report (tally : Tally Listed) : DependencyReport :=
  ⟨tally.repositories, tally.gathered.statuses, tally.errors⟩

private theorem list_result (registry : Registry σ) (config : Config) (options : RunOptions)
    (outdatedOnly : Bool) (start : σ) :
    (list registry config options outdatedOnly start).result =
      (visitProviders registry options (listRepository outdatedOnly) 0 config.providers
        ⟨0, 0, ⟨[], none⟩⟩ start).result.map Tally.report := by
  unfold list
  rw [bind_apply]
  obtain ⟨result, events, last⟩ := visitProviders registry options (listRepository outdatedOnly) 0
    config.providers ⟨0, 0, ⟨[], none⟩⟩ start
  cases result <;> rfl

/-- Listing only what is outdated comes to what listing everything does, without the rest. -/
theorem list_onlyOutdated (registry : Registry σ) (config : Config) (options : RunOptions)
    (start : σ) :
    (list registry config options true start).result =
      (list registry config options false start).result.map DependencyReport.onlyOutdated := by
  have walk : visitProviders registry options (listRepository true) 0 config.providers
      ⟨0, 0, ⟨[], none⟩⟩ = Tally.map Listed.onlyOutdated <$> visitProviders registry options
        (listRepository false) 0 config.providers ⟨0, 0, ⟨[], none⟩⟩ :=
    visitProviders_map listRepository_onlyOutdated config.providers 0 ⟨0, 0, ⟨[], none⟩⟩
  rw [list_result, list_result, walk, map_eq_pure_bind, bind_apply]
  obtain ⟨result, events, last⟩ := visitProviders registry options (listRepository false) 0
    config.providers ⟨0, 0, ⟨[], none⟩⟩ start
  cases result <;> rfl

/-- Listing and planning agree. Over hosts that always answer alike, a listing visits the selected
repositories and shows of each, as outdated, what a plan of it would upgrade, unless it fails where a
plan fails. Listing only what is outdated shows that alone. -/
theorem list_agrees_with_plan (registry : Registry σ) (replies : Host σ → Replies)
    (opening : ∀ hostType token baseUrl state cause,
      (registry.openHost hostType token baseUrl state).result = .error cause →
        ∃ message, cause.hostMessage? = some message)
    (gives : ∀ host, registry.Opens host → host.Gives (replies host)) (config : Config)
    (options : RunOptions) (start : σ) :
    ((∃ services : List (Service σ (List DependencyStatus)),
        Selects options config.providers services ∧
        Chain (Service.Happens registry ListHappens) services start
          (deeds (list registry config options false start).events)
          (list registry config options false start).state ∧
        (list registry config options false start).result = .ok
          ⟨(visits services).length, (visits services).flatMap Prod.snd, failures services⟩) ∨
      ∃ cause, (list registry config options false start).result = .error cause ∧
        Escapes registry options config.providers cause) ∧
    (list registry config options true start).result =
      (list registry config options false start).result.map DependencyReport.onlyOutdated := by
  refine ⟨?_, list_onlyOutdated registry config options start⟩
  have leads : Leads (Escapes registry options config.providers)
      (list registry config options false) start _ :=
    list_leads opening gives config options
  cases came : (list registry config options false start).result with
  | error cause => exact .inr ⟨cause, rfl, leads.fails cause came⟩
  | ok report =>
    obtain ⟨services, selects, chain, rfl⟩ := leads.comes report _ _ ⟨came, rfl, rfl⟩
    exact .inl ⟨services, selects, chain, rfl⟩

/-- A registry of one type of hosts, which answer always alike. -/
def constantRegistry : Registry Unit :=
  [("memory", fun _ _ => pure (Update.agreeable Update.pinnedText))]

private def constantReplies (host : Host Unit) : Replies :=
  fun call => (host.perform call ()).result

private theorem constantRegistry_gives (host : Host Unit) (opens : constantRegistry.Opens host) :
    host.Gives (constantReplies host) := by
  obtain rfl := Registry.eq_of_opens_single opens
  have orderly := Update.agreeable_orderly Update.pinnedText_legible
  exact ⟨fun _ _ => rfl, fun call => orderly.reporting call (), fun call => orderly.proper call ()⟩

/-- A configuration that visits a host of that registry. -/
def constantConfig : Config where
  providers := [⟨"memory", "", ["o", "p"], ""⟩]
  updaters := []

theorem list_agrees_with_plan_sample :
    ((∃ services : List (Service Unit (List DependencyStatus)),
        Selects {} constantConfig.providers services ∧
        Chain (Service.Happens constantRegistry ListHappens) services ()
          (deeds (list constantRegistry constantConfig {} false ()).events) () ∧
        (list constantRegistry constantConfig {} false ()).result = .ok
          ⟨(visits services).length, (visits services).flatMap Prod.snd, failures services⟩) ∨
      ∃ cause, (list constantRegistry constantConfig {} false ()).result = .error cause ∧
        Escapes constantRegistry {} constantConfig.providers cause) ∧
    (list constantRegistry constantConfig {} true ()).result =
      (list constantRegistry constantConfig {} false ()).result.map DependencyReport.onlyOutdated :=
  list_agrees_with_plan constantRegistry constantReplies
    (fun _ _ _ _ _ => Registry.told_of_openHost_single) constantRegistry_gives constantConfig {} ()

end InfraPins.Run
