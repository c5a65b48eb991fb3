import InfraPins.Proofs.Run.Account

namespace InfraPins

namespace Act

variable {σ α β γ δ : Type}

/-- Two operations come to values and states that are related. -/
def Matches (act : Act σ α) (other : Act σ β) (s t : σ) (post : α → β → σ → σ → Prop) : Prop :=
  ∃ value value', (act s).result = .ok value ∧ (other t).result = .ok value' ∧
    post value value' (act s).state (other t).state

namespace Matches

variable {s t : σ}

theorem pure {value : α} {value' : β} {post : α → β → σ → σ → Prop} (holds : post value value' s t) :
    Matches (Pure.pure value) (Pure.pure value') s t post :=
  ⟨value, value', rfl, rfl, holds⟩

/-- Entries in the journal change nothing. -/
theorem record {event event' : Event} {post : Unit → Unit → σ → σ → Prop} (holds : post () () s t) :
    Matches (Act.record event) (Act.record event') s t post :=
  ⟨(), (), rfl, rfl, holds⟩

theorem weaken {act : Act σ α} {other : Act σ β} {post post' : α → β → σ → σ → Prop}
    (matched : Matches act other s t post)
    (implies : ∀ value value' s t, post value value' s t → post' value value' s t) :
    Matches act other s t post' := by
  obtain ⟨value, value', came, came', holds⟩ := matched
  exact ⟨value, value', came, came', implies _ _ _ _ holds⟩

theorem bind {first : Act σ α} {other : Act σ β} {next : α → Act σ γ} {next' : β → Act σ δ}
    {post : γ → δ → σ → σ → Prop}
    (matched : Matches first other s t fun value value' s t =>
      Matches (next value) (next' value') s t post) :
    Matches (first >>= next) (other >>= next') s t post := by
  obtain ⟨value, value', came, came', last, last', ended, ended', holds⟩ := matched
  refine ⟨last, last', ?_⟩
  simp only [bind_apply]
  cases outcome : first s with
  | mk result events middle =>
    cases outcome' : other t with
    | mk result' events' middle' =>
      rw [outcome] at came ended holds
      rw [outcome'] at came' ended' holds
      obtain rfl : result = .ok value := came
      obtain rfl : result' = .ok value' := came'
      exact ⟨ended, ended', holds⟩

/-- Operations with one result, whose failures have messages. -/
theorem attempt {act other : Act σ α} {message? : Failure → Option String}
    {post : Except String α → Except String α → σ → σ → Prop}
    (same : (act s).result = (other t).result)
    (told : ∀ cause, (act s).result = .error cause → ∃ message, message? cause = some message)
    (holds : ∀ answer, post answer answer (act s).state (other t).state) :
    Matches (act.attempt message?) (other.attempt message?) s t post := by
  have answered : ∃ answer, ((act.attempt message?) s).result = .ok answer ∧
      ((other.attempt message?) t).result = .ok answer := by
    simp only [Act.attempt, ← same]
    cases came : (act s).result with
    | ok value => exact ⟨.ok value, rfl, rfl⟩
    | error cause =>
      obtain ⟨message, here⟩ := told cause came
      exact ⟨.error message, by simp [here], by simp [here]⟩
  obtain ⟨answer, came, came'⟩ := answered
  exact ⟨answer, answer, came, came', holds answer⟩

/-- What is done in the end, if it does not fail. -/
theorem ensuring {act : Act σ α} {other : Act σ β} {last last' : Act σ Unit}
    {post : α → β → σ → σ → Prop}
    (matched : Matches act other s t fun value value' s t =>
      Matches last last' s t fun _ _ s t => post value value' s t) :
    Matches (act.ensuring last) (other.ensuring last') s t post := by
  obtain ⟨value, value', came, came', _, _, ended, ended', holds⟩ := matched
  refine ⟨value, value', ?_, ?_, holds⟩
  · simp [Act.ensuring, ended, came]
  · simp [Act.ensuring, ended', came']

end Matches

end Act

namespace Run

open Act

variable {σ : Type} {registry : Registry σ} {updaters : List (Updater σ)}
  {like : Host σ → σ → Host σ → σ → Prop} {options : RunOptions} {config : Config}

/-- Providers that do not depend on one another: a host that is made behaves the same whatever was
done before, as long as the same is asked of it. Two hosts that behave the same, each with the state
that it is in, are alike. -/
structure Independent (registry : Registry σ) (updaters : List (Updater σ))
    (like : Host σ → σ → Host σ → σ → Prop) : Prop where
  opening : ∀ hostType token baseUrl s t,
    let first := registry.openHost hostType token baseUrl s
    let second := registry.openHost hostType token baseUrl t
    (∃ host host', first.result = .ok host ∧ second.result = .ok host' ∧
        like host first.state host' second.state) ∨
      ∃ cause cause', first.result = .error cause ∧ second.result = .error cause'
  discovering : ∀ host s host' t, like host s host' t → ∀ organization,
    (host.discover organization s).result = (host'.discover organization t).result ∧
      like host (host.discover organization s).state host' (host'.discover organization t).state
  detecting : ∀ host s host' t, like host s host' t → ∀ updater ∈ updaters, ∀ repository,
    (updater.detect host repository s).result = (updater.detect host' repository t).result ∧
      like host (updater.detect host repository s).state host'
        (updater.detect host' repository t).state
  creating : ∀ host s host' t, like host s host' t → ∀ updater ∈ updaters, ∀ repository wanted,
    (updater.createPullRequests host repository wanted s).result =
        (updater.createPullRequests host' repository wanted t).result ∧
      like host (updater.createPullRequests host repository wanted s).state host'
        (updater.createPullRequests host' repository wanted t).state

structure Raised (base tally other : Tally (List PullRequest)) : Prop where
  repositories : tally.repositories = base.repositories + other.repositories
  gathered : tally.gathered = base.gathered ++ other.gathered
  errors : tally.errors = base.errors + other.errors

section Steps

variable {base tally tally' : Tally (List PullRequest)} {host host' : Host σ} {s t : σ}

theorem Raised.addError (raised : Raised base tally tally') :
    Raised base tally.addError tally'.addError :=
  ⟨raised.repositories, raised.gathered, by simp [Tally.addError, raised.errors]; omega⟩

private theorem forM_log_matches {items : List α} {level : Level} {text : α → String}
    {post : Unit → Unit → σ → σ → Prop} (holds : post () () s t) :
    Matches (items.forM fun item => (Act.log level (text item) : Act σ Unit))
      (items.forM fun item => (Act.log level (text item) : Act σ Unit)) s t post := by
  induction items with
  | nil => exact .pure holds
  | cons item items ih => exact .bind (.record ih)

private theorem update_matches {updater : Updater σ} (reports : Dependable updater host)
    (independent : Independent registry updaters like) (member : updater ∈ updaters)
    (alike : like host s host' t) (repository : Repository) :
    Matches (update options config updater host repository)
      (update options config updater host' repository) s t
      fun found found' s t => found = found' ∧ like host s host' t := by
  cases wanted : wants options config updater with
  | false =>
    rw [update_of_unwanted wanted, update_of_unwanted wanted]
    exact .pure ⟨rfl, alike⟩
  | true =>
    rw [update_of_wanted wanted, update_of_wanted wanted]
    have detects : Matches (consult updater host repository) (consult updater host' repository) s t
        fun found found' s t => found = found' ∧ like host s host' t := by
      obtain ⟨found, told⟩ := reports.detecting repository s
      have ⟨same, onward⟩ := independent.detecting _ _ _ _ alike updater member repository
      exact .bind (.record ⟨found, found, told, same ▸ told, rfl, onward⟩)
    refine .bind (detects.weaken ?_)
    rintro detected _ s t ⟨rfl, alike⟩
    cases detected with
    | false => exact .pure ⟨rfl, alike⟩
    | true =>
      have ⟨same, onward⟩ := independent.creating _ _ _ _ alike updater member repository
        (updateOptions options (config.updater updater.name))
      refine .bind (.record (.bind (.attempt same (reports.creating repository _ s) fun answer => ?_)))
      cases answer with
      | error message => exact .bind (.record (.pure ⟨rfl, onward⟩))
      | ok requests => exact .bind (forM_log_matches (.pure ⟨rfl, onward⟩))

private theorem updateAll_matches {some : List (Updater σ)}
    (reports : ∀ updater ∈ updaters, Dependable updater host)
    (independent : Independent registry updaters like) (within : some ⊆ updaters)
    (alike : like host s host' t) (repository : Repository) :
    Matches (updateAll options config host repository some)
      (updateAll options config host' repository some) s t
      fun found found' s t => found = found' ∧ like host s host' t := by
  induction some generalizing s t with
  | nil => exact .pure ⟨rfl, alike⟩
  | cons updater rest ih =>
    obtain ⟨member, within⟩ := List.cons_subset.mp within
    refine .bind ((update_matches (reports updater member) independent member alike
      repository).weaken ?_)
    rintro found _ s t ⟨rfl, alike⟩
    refine .bind ((ih within alike).weaken ?_)
    rintro more _ s t ⟨rfl, alike⟩
    exact .pure ⟨rfl, alike⟩

private theorem visitRepositories_matches {index index' : Nat}
    (reports : ∀ updater ∈ updaters, Dependable updater host)
    (independent : Independent registry updaters like) (repositories : List Repository)
    (raised : Raised base tally tally') (alike : like host s host' t) :
    Matches
      (visitRepositories options (visitor updaters config options index host) repositories tally)
      (visitRepositories options (visitor updaters config options index' host') repositories tally')
      s t fun after after' s t => Raised base after after' ∧ like host s host' t := by
  induction repositories generalizing tally tally' s t with
  | nil => exact .pure ⟨raised, alike⟩
  | cons repository rest ih =>
    unfold visitRepositories
    split
    · exact ih raised alike
    · refine .bind (.bind ((updateAll_matches reports independent (List.Subset.refl _) alike
        repository).weaken ?_))
      rintro ⟨requests, errors⟩ _ s t ⟨rfl, alike⟩
      refine .pure (ih ⟨?_, ?_, ?_⟩ alike)
      · simp [raised.repositories, Nat.add_assoc]
      · simp [raised.gathered]
      · simp [raised.errors, Nat.add_assoc]

private theorem visitOrganizations_matches {index index' : Nat}
    (discovers : ∀ organization state cause, (host.discover organization state).result = .error cause →
      ∃ message, cause.hostMessage? = some message)
    (reports : ∀ updater ∈ updaters, Dependable updater host)
    (independent : Independent registry updaters like) (organizations : List String)
    (raised : Raised base tally tally') (alike : like host s host' t) :
    Matches
      (visitOrganizations options host (visitor updaters config options index host) organizations
        tally)
      (visitOrganizations options host' (visitor updaters config options index' host') organizations
        tally')
      s t fun after after' s t => Raised base after after' ∧ like host s host' t := by
  induction organizations generalizing tally tally' s t with
  | nil => exact .pure ⟨raised, alike⟩
  | cons organization rest ih =>
    unfold visitOrganizations
    split
    · exact ih raised alike
    · obtain ⟨same, onward⟩ := independent.discovering _ _ _ _ alike organization
      refine .bind (.record (.bind (.attempt same (discovers organization s) fun answer => ?_)))
      cases answer with
      | error message => exact .bind (.record (ih raised.addError onward))
      | ok listing =>
        refine .bind (.record (.bind ((visitRepositories_matches reports independent listing raised
          onward).weaken ?_)))
        rintro after after' s t ⟨raised, alike⟩
        exact ih raised alike

private theorem visitProviders_matches (sound : Sound registry updaters) (lets : LetsGo registry)
    (independent : Independent registry updaters like) (providers : List ProviderConfig)
    (index index' : Nat) (raised : Raised base tally tally') :
    Matches
      (visitProviders registry options (visitor updaters config options) index providers tally)
      (visitProviders registry options (visitor updaters config options) index' providers tally')
      s t fun after after' _ _ => Raised base after after' := by
  induction providers generalizing index index' tally tally' s t with
  | nil => exact .pure raised
  | cons provider rest ih =>
    unfold visitProviders
    split
    · exact ih _ _ raised
    · rcases independent.opening provider.hostType provider.token provider.baseUrl s t with
        ⟨host, host', came, came', alike⟩ | ⟨cause, cause', came, came'⟩
      · have opens : registry.Opens host := ⟨_, _, _, _, came⟩
        have opens' : registry.Opens host' := ⟨_, _, _, _, came'⟩
        refine .bind ⟨.ok host, .ok host', by simp [Act.attempt, came], by simp [Act.attempt, came'],
          ?_⟩
        refine .bind (.record (.bind (.ensuring ((visitOrganizations_matches
          (sound.reports.discovering host opens) (sound.updating host opens) independent
          provider.organizations raised alike).weaken ?_))))
        rintro after after' s t ⟨raised, _⟩
        exact .bind (.record ⟨(), (), lets host opens s, lets host' opens' t, ih _ _ raised⟩)
      · obtain ⟨message, told⟩ := sound.reports.opening _ _ _ s cause came
        obtain ⟨message', told'⟩ := sound.reports.opening _ _ _ t cause' came'
        refine .bind ⟨.error message, .error message', by simp [Act.attempt, came, told],
          by simp [Act.attempt, came', told'], ?_⟩
        exact .bind (.record (ih _ _ raised.addError))

end Steps

private theorem visitProviders_append {β : Type} {visit : Visitor σ β}
    (providers more : List ProviderConfig) (index : Nat) (tally : Tally β) :
    visitProviders registry options visit index (providers ++ more) tally = (do
      let tally ← visitProviders registry options visit index providers tally
      visitProviders registry options visit (index + providers.length) more tally) := by
  induction providers generalizing index tally with
  | nil => simp [visitProviders]
  | cons provider rest ih =>
    have next : index + (rest.length + 1) = index + 1 + rest.length := by omega
    simp only [List.cons_append, visitProviders, List.length_cons, next]
    split
    · exact ih (index + 1) tally
    · rw [bind_assoc]
      congr 1
      funext answer
      cases answer <;> simp only [bind_assoc, ih]

private theorem visitor_with_providers (providers : List ProviderConfig) :
    visitor updaters { config with providers } options = visitor updaters config options := by
  have same (host : Host σ) (repository : Repository) :
      updateAll options { config with providers } host repository updaters =
        updateAll options config host repository updaters := by
    induction updaters with
    | nil => rfl
    | cons updater rest ih =>
      simp only [updateAll, ih]
      rfl
  funext index host repository gathered
  simp only [visitor, same]

/-- What two runs come to, added up. -/
def added (first second : RunSummary) : RunSummary where
  repositories := first.repositories + second.repositories
  pullRequests := first.pullRequests ++ second.pullRequests
  errors := first.errors + second.errors

private def Tally.summary (tally : Tally (List PullRequest)) : RunSummary :=
  ⟨tally.repositories, tally.gathered, tally.errors⟩

private theorem run_result (state : σ) {tally : Tally (List PullRequest)}
    (came : (visitProviders registry options (visitor updaters config options) 0 config.providers
      ⟨0, 0, []⟩ state).result = .ok tally) :
    (run registry updaters config options state).result = .ok tally.summary := by
  rw [run_eq, bind_apply]
  generalize visitProviders registry options (visitor updaters config options) 0 config.providers
    ⟨0, 0, []⟩ state = outcome at came
  obtain ⟨result, events, last⟩ := outcome
  obtain rfl : result = .ok tally := came
  rfl

private theorem run_append (sound : Sound registry updaters) (lets : LetsGo registry)
    (independent : Independent registry updaters like) {providers more : List ProviderConfig}
    (split : config.providers = providers ++ more) (start s t : σ) :
    ∃ first second,
      (run registry updaters { config with providers } options s).result = .ok first ∧
      (run registry updaters { config with providers := more } options t).result = .ok second ∧
      (run registry updaters config options start).result = .ok (added first second) := by
  -- The first part from two states, and then the second part after the first and on its own.
  have walk := @visitProviders_matches σ registry updaters like options config
  obtain ⟨tally, first, came, came', same⟩ :=
    @walk ⟨0, 0, []⟩ ⟨0, 0, []⟩ ⟨0, 0, []⟩ start s sound lets independent providers 0 0 ⟨rfl, rfl, rfl⟩
  obtain ⟨total, second, ended, ended', raised⟩ :=
    @walk tally tally ⟨0, 0, []⟩ (visitProviders registry options (visitor updaters config options) 0
      providers ⟨0, 0, []⟩ start).state t sound lets independent more (0 + providers.length) 0
      ⟨rfl, (List.append_nil _).symm, rfl⟩
  rw [← visitor_with_providers providers] at came'
  rw [← visitor_with_providers more] at ended'
  refine ⟨first.summary, second.summary, run_result s came', run_result t ended', ?_⟩
  have whole : (visitProviders registry options (visitor updaters config options) 0 config.providers
      ⟨0, 0, []⟩ start).result = .ok total := by
    rw [split, visitProviders_append, bind_apply]
    generalize visitProviders registry options (visitor updaters config options) 0 providers
      ⟨0, 0, []⟩ start = outcome at came ended
    obtain ⟨result, events, middle⟩ := outcome
    obtain rfl : result = .ok tally := came
    exact ended
  rw [run_result start whole]
  simp [Tally.summary, added, raised.repositories, raised.gathered, raised.errors, same.repositories,
    same.gathered, same.errors]

/-- What a run comes to. It goes through the selected providers, organizations and repositories in
the order of the configuration and the listings, whatever fails on the way; it makes and lets go of
one host after another, and counts visits, pull requests and failures. Where the providers are
independent, what two runs come to adds up. -/
theorem run_comes_to_account (registry : Registry σ) (updaters : List (Updater σ))
    (sound : Sound registry updaters) (lets : LetsGo registry) (config : Config)
    (options : RunOptions) (start : σ) :
    (∃ services, Selects options config.providers services ∧
      Chain (Service.Happens registry (VisitHappens updaters options config)) services start
        (deeds (run registry updaters config options start).events)
        (run registry updaters config options start).state ∧
      (run registry updaters config options start).result = .ok (account services)) ∧
    ∀ like, Independent registry updaters like →
      ∀ providers more, config.providers = providers ++ more → ∀ s t, ∃ first second,
        (run registry updaters { config with providers } options s).result = .ok first ∧
        (run registry updaters { config with providers := more } options t).result = .ok second ∧
        (run registry updaters config options start).result = .ok (added first second) := by
  refine ⟨?_, fun like independent providers more split s t =>
    run_append sound lets independent split start s t⟩
  have leads := run_leads sound config options start
  cases came : (run registry updaters config options start).result with
  | error cause => exact absurd (leads.fails cause came) lets.not_closingFailed
  | ok summary =>
    obtain ⟨services, selects, chain, rfl⟩ := leads.comes _ _ _ ⟨came, rfl, rfl⟩
    exact ⟨services, selects, chain, rfl⟩

private def smallHost : Host Unit where
  name := "memory"
  discover organization :=
    if organization = "o" then pure [{ name := .text "i", organization, defaultBranch := .text "main" }]
    else Act.fail (.host "discover failed")
  listFiles _ _ := pure []
  fetchFile _ _ := Act.fail (.host "read failed")
  listTags _ := pure []
  hasFile _ _ := pure false
  createBranch _ _ := pure ()
  openPullRequest _ _ := Act.fail (.host "pr failed")
  pullRequestExists _ _ := pure false
  close := pure ()

private def smallRegistry : Registry Unit :=
  [("memory", fun _ _ => pure smallHost), ("broken", fun _ _ => Act.fail (.host "no host"))]

private def smallUpdaters : List (Updater Unit) :=
  [⟨"able", fun _ _ => pure true, fun _ _ _ => pure
      [{ id := .int 1, title := .text "t", url := .text "u", status := .text "open" }]⟩,
    ⟨"unable", fun _ _ => pure true, fun _ _ _ => Act.fail (.update "no branch")⟩]

private theorem smallRegistry_openHost (hostType token baseUrl : String) :
    (∀ state, (smallRegistry.openHost hostType token baseUrl state).result = .ok smallHost) ∨
      ∃ cause, (∃ message, cause.hostMessage? = some message) ∧
        ∀ state, (smallRegistry.openHost hostType token baseUrl state).result = .error cause := by
  rcases smallRegistry.openHost_result hostType token baseUrl with unknown | ⟨_, member, _, same⟩
  · exact .inr ⟨_, ⟨_, rfl⟩, unknown⟩
  · simp only [smallRegistry, List.mem_cons, List.not_mem_nil, or_false] at member
    rcases member with rfl | rfl
    · exact .inl fun state => same state
    · exact .inr ⟨_, ⟨_, rfl⟩, same⟩

private theorem smallRegistry_opens {host : Host Unit} (opens : smallRegistry.Opens host) :
    host = smallHost := by
  obtain ⟨hostType, token, baseUrl, state, came⟩ := opens
  rcases smallRegistry_openHost hostType token baseUrl with always | ⟨_, _, never⟩
  · exact Except.ok.inj (came.symm.trans (always state))
  · cases came.symm.trans (never state)

private theorem smallUpdaters_reports {updater : Updater Unit} (member : updater ∈ smallUpdaters)
    (host : Host Unit) : Dependable updater host := by
  simp only [smallUpdaters, List.mem_cons, List.not_mem_nil, or_false] at member
  rcases member with rfl | rfl
  · exact ⟨fun _ _ => ⟨true, rfl⟩, nofun⟩
  · refine ⟨fun _ _ => ⟨true, rfl⟩, fun _ _ _ cause failed => ?_⟩
    obtain rfl := Except.error.inj failed
    exact ⟨_, rfl⟩

private theorem small_sound : Sound smallRegistry smallUpdaters where
  reports.opening := by
    intro hostType token baseUrl state cause failed
    rcases smallRegistry_openHost hostType token baseUrl with always | ⟨other, told, never⟩
    · cases failed.symm.trans (always state)
    · obtain rfl := Except.error.inj (failed.symm.trans (never state))
      exact told
  reports.discovering := by
    intro host opens organization state cause failed
    rw [smallRegistry_opens opens] at failed
    simp only [smallHost] at failed
    split at failed <;> cases failed
    exact ⟨_, rfl⟩
  closing := by
    intro host opens state cause failed
    rw [smallRegistry_opens opens] at failed
    cases failed
  updating := fun host _ updater member => smallUpdaters_reports member host

private theorem small_letsGo : LetsGo smallRegistry := by
  intro host opens state
  rw [smallRegistry_opens opens]
  rfl

private theorem small_independent :
    Independent smallRegistry smallUpdaters fun host _ host' _ => host = host' where
  opening := by
    intro hostType token baseUrl s t
    rcases smallRegistry_openHost hostType token baseUrl with always | ⟨cause, _, never⟩
    · exact .inl ⟨smallHost, smallHost, always s, always t, rfl⟩
    · exact .inr ⟨cause, cause, never s, never t⟩
  discovering := by
    rintro host _ _ _ rfl organization
    exact ⟨rfl, rfl⟩
  detecting := by
    rintro host _ _ _ rfl updater _ repository
    exact ⟨rfl, rfl⟩
  creating := by
    rintro host _ _ _ rfl updater _ repository wanted
    exact ⟨rfl, rfl⟩

private def smallConfig : Config where
  providers := [⟨"memory", "", ["o", "x"], ""⟩, ⟨"broken", "", ["o"], ""⟩, ⟨"memory", "", ["o"], ""⟩]
  updaters := []

theorem run_comes_to_account_sample :
    (∃ services, Selects {} smallConfig.providers services ∧
      Chain (Service.Happens smallRegistry (VisitHappens smallUpdaters {} smallConfig)) services ()
        (deeds (run smallRegistry smallUpdaters smallConfig {} ()).events) () ∧
      (run smallRegistry smallUpdaters smallConfig {} ()).result = .ok (account services)) ∧
    ∃ first second,
      (run smallRegistry smallUpdaters { smallConfig with providers := smallConfig.providers.take 1 }
        {} ()).result = .ok first ∧
      (run smallRegistry smallUpdaters { smallConfig with providers := smallConfig.providers.drop 1 }
        {} ()).result = .ok second ∧
      (run smallRegistry smallUpdaters smallConfig {} ()).result = .ok (added first second) :=
  ⟨(run_comes_to_account smallRegistry smallUpdaters small_sound small_letsGo smallConfig {} ()).1,
    (run_comes_to_account smallRegistry smallUpdaters small_sound small_letsGo smallConfig {} ()).2 _
      small_independent _ _ (List.take_append_drop 1 _).symm () ()⟩

private def stuckRegistry : Registry Unit :=
  [("memory", fun _ _ => pure { smallHost with close := Act.fail (.host "close failed") })]

private theorem stuck_sound : Sound stuckRegistry [] where
  reports.opening _ _ _ _ _ := Registry.told_of_openHost_single
  reports.discovering := by
    intro host opens organization state cause failed
    obtain rfl := Registry.eq_of_opens_single opens
    simp only [smallHost] at failed
    split at failed <;> cases failed
    exact ⟨_, rfl⟩
  closing := by
    intro host opens state cause failed
    obtain rfl := Registry.eq_of_opens_single opens
    obtain rfl := Except.error.inj failed
    exact ⟨_, rfl⟩
  updating _ _ := nofun

private def smallProject : Repository where
  name := .text "i"
  organization := "o"
  defaultBranch := .text "main"

private def twiceProvider : ProviderConfig :=
  ⟨"memory", "", ["o", "o"], ""⟩

private def twiceConfig : Config where
  providers := [twiceProvider]
  updaters := []

private def twiceServices : List (Service Unit (List (Updater Unit × Attempt))) :=
  [.served twiceProvider smallHost (List.replicate 2 (.listed "o" [smallProject] [(smallProject, [])]))]

private theorem twice_selects : Selects {} twiceConfig.providers twiceServices := by
  refine ⟨rfl, List.forall_mem_singleton.mpr ⟨rfl, ?_⟩⟩
  intro discovery member
  obtain rfl := List.eq_of_mem_replicate member
  rfl

private theorem twice_happens : Chain (Service.Happens smallRegistry
    (VisitHappens [] {} twiceConfig)) twiceServices ()
    (deeds (run smallRegistry [] twiceConfig {} ()).events) () := by
  have granted : (smallHost.askDiscover "o").Comes () (.ok [smallProject]) [.called (.discover "o")] () :=
    ⟨rfl, rfl, rfl⟩
  have visited : VisitHappens [] {} twiceConfig smallHost (smallProject, []) () [] () := ⟨rfl, .nil⟩
  have listed : Discovery.Happens smallHost (VisitHappens [] {} twiceConfig smallHost)
      (.listed "o" [smallProject] [(smallProject, [])]) () [.called (.discover "o")] () :=
    .listed granted (.cons visited .nil)
  have opened : (smallRegistry.openHost "memory" "" "").Comes () (.ok smallHost)
      [.opened "memory" "" none] () := ⟨rfl, rfl, rfl⟩
  have closed : smallHost.askClose.Comes () (.ok ()) [.called .close] () := ⟨rfl, rfl, rfl⟩
  have served := @Service.Happens.served Unit _ smallRegistry (VisitHappens [] {} twiceConfig)
    twiceProvider smallHost _ () () () () _ _ _ opened (.cons listed (.cons listed .nil)) closed
  exact .cons served .nil

/-- A run does not come to its account when a host cannot be let go of. A repository that is listed twice
is visited and counted twice. -/
theorem not_run_comes_to_account :
    (¬ ∀ (registry : Registry Unit) (updaters : List (Updater Unit)) (config : Config)
      (options : RunOptions), Sound registry updaters →
        ∃ summary, (run registry updaters config options ()).result = .ok summary) ∧
    ¬ ∀ (registry : Registry Unit) (updaters : List (Updater Unit)) (config : Config)
      (options : RunOptions) (services : List (Service Unit (List (Updater Unit × Attempt)))),
      Sound registry updaters → LetsGo registry → Selects options config.providers services →
        Chain (Service.Happens registry (VisitHappens updaters options config)) services ()
          (deeds (run registry updaters config options ()).events) () →
        ∃ summary, (run registry updaters config options ()).result = .ok summary ∧
          summary.repositories = ((visits services).map Prod.fst).eraseDups.length := by
  constructor
  · intro comes
    obtain ⟨summary, came⟩ := comes stuckRegistry [] smallConfig {} stuck_sound
    have failed : (run stuckRegistry [] smallConfig {} ()).result = .error (.host "close failed") := rfl
    cases failed.symm.trans came
  · intro counts
    have sound : Sound smallRegistry [] := ⟨small_sound.reports, small_sound.closing, fun _ _ => nofun⟩
    obtain ⟨summary, came, counted⟩ := counts smallRegistry [] twiceConfig {}
      twiceServices sound small_letsGo twice_selects twice_happens
    have twice : (run smallRegistry [] twiceConfig {} ()).result = .ok ⟨2, [], 0⟩ := rfl
    obtain rfl := Except.ok.inj (twice.symm.trans came)
    exact absurd counted (by decide)

end Run

end InfraPins
