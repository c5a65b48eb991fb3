import InfraPins.Proofs.Update.Inquiry

/-! Restraint of a dry run. Whatever the host answers, an update that only plans asks for nothing but
what a plan is made from; and on a host whose answers depend on the call alone, a dry run asks what the
real run asks first. Both are said of the reading part of an update by one set of rules. -/

namespace InfraPins

/-- A host whose answers depend on the call alone. -/
def Host.Steady {σ : Type} (host : Host σ) : Prop :=
  ∃ replies : (call : Call) → Except Failure call.Answer,
    ∀ call state, (host.perform call state).result = replies call

namespace Act

variable {σ α β : Type} {host : Host σ} {permitted : Call → Prop}

/-- An operation all of whose calls are permitted, from every state; a value that it comes to has a
property. -/
def Refrains (permitted : Call → Prop) (act : Act σ α) (good : α → Prop) : Prop :=
  ∀ start, (∀ call ∈ calls (act start).events, permitted call) ∧
    ∀ value, (act start).result = .ok value → good value

namespace Refrains

theorem of_silent {act : Act σ α} {good : α → Prop} (silent : ∀ start, calls (act start).events = [])
    (holds : ∀ start value, (act start).result = .ok value → good value) :
    Refrains permitted act good := by
  intro start
  rw [silent]
  exact ⟨nofun, holds start⟩

theorem bind {first : Act σ α} {next : α → Act σ β} {middle : α → Prop} {good : β → Prop}
    (head : Refrains permitted first middle)
    (rest : ∀ value, middle value → Refrains permitted (next value) good) :
    Refrains permitted (first >>= next) good := by
  intro start
  have begun := head start
  rw [bind_apply]
  generalize first start = outcome at begun
  obtain ⟨result, events, left⟩ := outcome
  cases result with
  | error cause => exact ⟨begun.1, nofun⟩
  | ok value =>
    have onward := rest value (begun.2 value rfl) left
    refine ⟨fun call member => ?_, onward.2⟩
    rw [calls_append] at member
    exact (List.mem_append.mp member).elim (begun.1 call) (onward.1 call)

theorem rules : Rules fun {α} (act : Act σ α) good => Refrains permitted act good where
  pure := fun holds => of_silent (fun _ => rfl) fun _ _ same => Except.ok.inj same ▸ holds
  bind := bind

theorem note {event : Event} (silent : calls [event] = []) :
    Refrains permitted (Act.record event : Act σ Unit) fun _ => True :=
  of_silent (fun _ => silent) fun _ _ _ => trivial

theorem log {level : Level} {text : String} :
    Refrains permitted (Act.log level text : Act σ Unit) fun _ => True :=
  note rfl

/-- What comes after an operation and asks for nothing adds no calls. -/
theorem calls_bind {first : Act σ α} {next : α → Act σ β}
    (rest : ∀ value, Refrains (fun _ => False) (next value) fun _ => True) (state : σ) :
    calls ((first >>= next) state).events = calls (first state).events := by
  rw [bind_apply]
  generalize first state = outcome
  obtain ⟨result, events, left⟩ := outcome
  cases result with
  | error cause => rfl
  | ok value =>
    have none : calls (next value left).events = [] :=
      List.eq_nil_iff_forall_not_mem.mpr (rest value left).1
    simp [none]

/-- What is attempted is done all the same. -/
theorem attempt {act : Act σ α} {good : α → Prop} (message? : Failure → Option String)
    (refrains : Refrains permitted act good) :
    Refrains permitted (act.attempt message?) fun answer =>
      ∀ value, answer = .ok value → good value := by
  intro start
  refine ⟨(refrains start).1, fun answer came value same => (refrains start).2 value ?_⟩
  subst same
  simp only [Act.attempt] at came
  split at came
  · rename_i other begun
    rw [begun, Except.ok.inj (Except.ok.inj came)]
  · split at came
    · cases Except.ok.inj came
    · cases came

theorem ensuring {act : Act σ α} {last : Act σ Unit} {good : α → Prop}
    (refrains : Refrains permitted act good) (closes : Refrains permitted last fun _ => True) :
    Refrains permitted (act.ensuring last) good := by
  intro start
  constructor
  · intro call member
    simp only [Act.ensuring, calls_append] at member
    exact (List.mem_append.mp member).elim ((refrains start).1 call) ((closes _).1 call)
  · intro value came
    simp only [Act.ensuring] at came
    split at came
    · exact (refrains start).2 value came
    · cases came

theorem ask (discreet : host.Discreet) {call : Call} (allowed : permitted call) :
    Refrains permitted (host.ask call) fun _ => True := by
  intro start
  rw [Host.calls_ask discreet]
  exact ⟨List.forall_mem_singleton.mpr allowed, fun _ _ => trivial⟩

theorem readingRules (discreet : host.Discreet)
    (reads : ∀ call : Call, call.reads = true → permitted call) :
    FreeReadingRules host (fun _ _ => True) fun {α} (act : Act σ α) good =>
      Refrains permitted act good where
  toRules := rules
  lift := fun holds => of_silent (fun _ => rfl) fun _ => holds
  note := fun _ => note
  ask := fun call reading => attempt _ (ask discreet (reads call reading))

end Refrains

/-- An operation whose result and whose calls do not depend on the state; a value that it comes to has
a property. -/
def Repeats (act : Act σ α) (good : α → Prop) : Prop :=
  ∃ result asked, (∀ state, (act state).result = result ∧ calls (act state).events = asked) ∧
    ∀ value, result = .ok value → good value

namespace Repeats

theorem bind {first : Act σ α} {next : α → Act σ β} {middle : α → Prop} {good : β → Prop}
    (head : Repeats first middle) (rest : ∀ value, middle value → Repeats (next value) good) :
    Repeats (first >>= next) good := by
  obtain ⟨result, asked, always, holds⟩ := head
  cases result with
  | error cause =>
    refine ⟨.error cause, asked, fun state => ?_, nofun⟩
    have came := always state
    rw [bind_apply]
    generalize first state = outcome at came
    obtain ⟨result, events, left⟩ := outcome
    obtain ⟨rfl, rfl⟩ := came
    exact ⟨rfl, rfl⟩
  | ok value =>
    obtain ⟨result', more, always', holds'⟩ := rest value (holds value rfl)
    refine ⟨result', asked ++ more, fun state => ?_, holds'⟩
    have came := always state
    rw [bind_apply]
    generalize first state = outcome at came
    obtain ⟨result, events, left⟩ := outcome
    obtain ⟨rfl, rfl⟩ := came
    simpa using always' left

theorem rules : Rules fun {α} (act : Act σ α) good => Repeats act good where
  pure := fun holds => ⟨_, [], fun _ => ⟨rfl, rfl⟩, fun _ same => Except.ok.inj same ▸ holds⟩
  bind := bind

theorem attempt {act : Act σ α} {good : α → Prop} (repeats : Repeats act good)
    (message? : Failure → Option String) :
    Repeats (act.attempt message?) fun answer => ∀ value, answer = .ok value → good value := by
  obtain ⟨result, asked, always, holds⟩ := repeats
  cases result with
  | ok value =>
    refine ⟨.ok (.ok value), asked, fun state => ⟨?_, (always state).2⟩, ?_⟩
    · simp only [Act.attempt, (always state).1]
    · rintro _ ⟨⟩ _ ⟨⟩
      exact holds value rfl
  | error cause =>
    cases told : message? cause with
    | some message =>
      refine ⟨.ok (.error message), asked, fun state => ⟨?_, (always state).2⟩, ?_⟩
      · simp only [Act.attempt, (always state).1, told]
      · rintro _ ⟨⟩ _ ⟨⟩
    | none =>
      refine ⟨.error cause, asked, fun state => ⟨?_, (always state).2⟩, ?_⟩
      · simp only [Act.attempt, (always state).1, told]
      · rintro _ ⟨⟩

/-- On a host whose answers depend on the call alone. -/
theorem readingRules (discreet : host.Discreet) (steady : host.Steady) :
    FreeReadingRules host (fun _ _ => True) fun {α} (act : Act σ α) good => Repeats act good where
  toRules := rules
  lift := fun holds => ⟨_, [], fun _ => ⟨rfl, rfl⟩, holds⟩
  note := fun _ silent => ⟨.ok (), [], fun _ => ⟨rfl, silent⟩, fun _ _ => trivial⟩
  ask := by
    intro call _
    obtain ⟨replies, always⟩ := steady
    have asks : Repeats (host.ask call) fun _ => True :=
      ⟨replies call, [call], fun state => ⟨always call state, Host.calls_ask discreet call state⟩,
        fun _ _ => trivial⟩
    exact asks.attempt _

end Repeats

end Act

namespace Update

variable {σ : Type} {host : Host σ} {repository : Repository} {options : UpdateOptions}

private theorem calls_createPullRequests (state : σ) :
    calls (createPullRequests host repository options state).events =
      calls ((plan host repository >>= proceed host repository options) state).events := rfl

/-- A dry run asks for what a plan is made from, and for nothing else. -/
theorem calls_createPullRequests_dry (dry : options.dryRun = true) (state : σ) :
    calls (createPullRequests host repository options state).events =
      calls (plan host repository state).events := by
  rw [calls_createPullRequests]
  refine Act.Refrains.calls_bind (fun tasks => ?_) state
  have rules := @Act.Refrains.rules σ fun _ => False
  have done : Act.Refrains (fun _ => False) (pure [] : Act σ (List PullRequest)) fun _ => True :=
    rules.pure trivial
  unfold proceed
  split
  · exact rules.bind Act.Refrains.log fun _ _ => done
  · exact rules.bind Act.Refrains.log fun _ _ =>
      rules.bind (rules.forM fun _ _ => Act.Refrains.log) fun _ _ => done

/-- Whatever the options, an update asks first for what its plan is made from. -/
theorem calls_plan_prefix (state : σ) :
    calls (plan host repository state).events <+:
      calls (createPullRequests host repository options state).events := by
  rw [calls_createPullRequests, Act.bind_apply]
  generalize plan host repository state = outcome
  obtain ⟨result, events, left⟩ := outcome
  cases result with
  | error cause => exact List.prefix_rfl
  | ok tasks => simp

theorem asked_by_plan_or_after {permitted : List UpgradeTask → Call → Prop}
    (publishes : ∀ tasks, Act.Refrains (permitted tasks)
      (applyAndPublish host repository options tasks) fun _ => True) {state : σ} {call : Call}
    (asked : call ∈ calls (createPullRequests host repository options state).events) :
    call ∈ calls (plan host repository state).events ∨
      ∃ tasks, (plan host repository state).result = .ok tasks ∧ permitted tasks call := by
  have proceeds (tasks : List UpgradeTask) :
      Act.Refrains (permitted tasks) (proceed host repository options tasks) fun _ => True := by
    have rules := @Act.Refrains.rules σ (permitted tasks)
    have done : Act.Refrains (permitted tasks) (pure [] : Act σ (List PullRequest)) fun _ => True :=
      rules.pure trivial
    unfold proceed
    split
    · exact rules.bind Act.Refrains.log fun _ _ => done
    · refine rules.bind Act.Refrains.log fun _ _ => ?_
      split
      · exact rules.bind (rules.forM fun _ _ => Act.Refrains.log) fun _ _ => done
      · exact publishes tasks
  rw [calls_createPullRequests, Act.bind_apply] at asked
  generalize plan host repository state = outcome at asked ⊢
  obtain ⟨result, events, left⟩ := outcome
  cases result with
  | error cause => exact .inl asked
  | ok tasks =>
    rw [calls_append] at asked
    rcases List.mem_append.mp asked with asked | asked
    · exact .inl asked
    · exact .inr ⟨tasks, rfl, (proceeds tasks left).1 call asked⟩

/-- On a host whose answers depend on the call alone, a dry run asks what the real run asks first. -/
theorem calls_dry_prefix (discreet : host.Discreet) (steady : host.Steady)
    (dry : options.dryRun = true) (other : UpdateOptions) (first second : σ) :
    calls (createPullRequests host repository options first).events <+:
      calls (createPullRequests host repository other second).events := by
  have repeats : Act.Repeats (plan host repository) fun _ => True :=
    (Act.Repeats.readingRules discreet steady).plan
  obtain ⟨_, asked, always, _⟩ := repeats
  rw [calls_createPullRequests_dry dry, (always first).2, ← (always second).2]
  exact calls_plan_prefix second

end Update

end InfraPins
