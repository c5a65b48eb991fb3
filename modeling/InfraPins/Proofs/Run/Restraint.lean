import InfraPins.Proofs.Host.Builtin
import InfraPins.Proofs.Run.Listing
import InfraPins.Proofs.Run.Rules
import InfraPins.Proofs.Update.Restraint

namespace InfraPins

/-- Whether a call leaves everything as it is: it reads what a plan is made from, or lets go of a
host. -/
def Call.Harmless (call : Call) : Prop :=
  call.reads = true ∨ call = .close

namespace Run

open Act

variable {σ β : Type} {registry : Registry σ} {host : Host σ} {options : RunOptions}

/-- Reading from a discreet host, and letting go of it, is harmless. -/
theorem harmless_rules (discreet : host.Discreet) :
    FreeReadingRules host (fun _ _ => True) fun {α} (act : Act σ α) good =>
      Refrains Call.Harmless act good :=
  Refrains.readingRules discreet fun _ => .inl

theorem openHost_refrains (discreet : registry.Discreet) (hostType token baseUrl : String) :
    Refrains Call.Harmless (registry.openHost hostType token baseUrl) fun host => host.Discreet := by
  unfold Registry.openHost
  cases found : registry.lookup hostType with
  | none => exact .of_silent (fun _ => rfl) nofun
  | some opener =>
    have entry : (hostType, opener) ∈ registry := Update.mem_of_lookup found
    have opens (base : Option String) :
        Refrains Call.Harmless (opener token base) fun host => host.Discreet :=
      .of_silent (fun state => (discreet _ entry token base state).1)
        fun state => (discreet _ entry token base state).2
    exact Refrains.bind (.note rfl) fun _ _ => opens _

theorem harmless_runRules (discreet : registry.Discreet) :
    RunRules registry Host.Discreet (fun _ _ _ => True) fun {α} (act : Act σ α) good =>
      Refrains Call.Harmless act good where
  toRules := Refrains.rules
  note := fun _ => Refrains.note
  opening := fun hostType token baseUrl =>
    .attempt _ (openHost_refrains discreet hostType token baseUrl)
  reading := fun _ quiet => (harmless_rules quiet).toReadingRules
  closing := fun _ quiet refrains => refrains.ensuring (.ask quiet (.inr rfl))

theorem list_refrains (discreet : registry.Discreet) (config : Config) (outdatedOnly : Bool) :
    Refrains Call.Harmless (list registry config options outdatedOnly) fun _ => True := by
  have readable (host : Host σ) (quiet : host.Discreet) :
      Readable (fun _ _ => True) (fun {α} (act : Act σ α) good => Refrains Call.Harmless act good)
        (fun _ => True) fun _ => True :=
    (harmless_rules quiet).readable fun _ _ _ _ _ _ _ _ _ => trivial
  refine list_goes (harmless_runRules discreet) readable (fun host quiet _ _ _ _ _ => ?_) config _
  exact (harmless_rules quiet).lift fun _ _ => trivial

theorem createPullRequests_refrains (discreet : host.Discreet) {repository : Repository}
    {wanted : UpdateOptions} (dry : wanted.dryRun = true) :
    Refrains Call.Harmless (Update.createPullRequests host repository wanted) fun _ => True := by
  intro start
  rw [Update.calls_createPullRequests_dry dry]
  exact ⟨((harmless_rules discreet).plan start).1, fun _ _ => trivial⟩

theorem run_refrains (discreet : registry.Discreet) (dry : options.dryRun = true) (config : Config) :
    Refrains Call.Harmless (run registry [Update.updater σ] config options) fun _ => True := by
  refine run_goes (harmless_runRules discreet) fun host quiet repository => ?_
  refine List.forall_mem_singleton.mpr ?_
  have rules := (harmless_rules quiet).toReadingRules
  have ordered : Refrains Call.Harmless (order options config (Update.updater σ) host repository)
      fun _ => True :=
    Refrains.bind (.note rfl) fun _ _ => createPullRequests_refrains quiet dry
  exact update_goes rules (Update.detect_goes rules)
    (rules.weaken (Refrains.attempt _ ordered) fun _ _ => trivial)

/-- A dry run on built-in hosts only reads and lets go of them. -/
theorem run_builtin_harmless (dry : options.dryRun = true) (config : Config) (wire : Wire) :
    ∀ call ∈ calls (run HostType.registry [Update.updater Wire] config options wire).events,
      call.Harmless :=
  (run_refrains HostType.registry_discreet dry config wire).1

/-- Listing, and a run that is dry, only read and let go of hosts; and a dry run of the update of a
repository asks what the real one asks first, if the host's answers depend on the call alone. -/
theorem dry_runs_only_read (registry : Registry σ) (discreet : registry.Discreet) (config : Config)
    (options : RunOptions) (outdatedOnly : Bool) (start : σ) :
    (∀ call ∈ calls (list registry config options outdatedOnly start).events, call.Harmless) ∧
    (options.dryRun = true →
      ∀ call ∈ calls (run registry [Update.updater σ] config options start).events, call.Harmless) ∧
    ∀ host : Host σ, host.Discreet → host.Steady →
      ∀ (repository : Repository) (wanted : UpdateOptions) (first second : σ),
        calls (Update.createPullRequests host repository { wanted with dryRun := true } first).events <+:
          calls
            (Update.createPullRequests host repository { wanted with dryRun := false } second).events :=
  ⟨(list_refrains discreet config outdatedOnly start).1,
    fun dry => (run_refrains discreet dry config start).1,
    fun _ quiet steady _ _ first second => Update.calls_dry_prefix quiet steady rfl _ first second⟩

theorem dry_runs_only_read_sample :
    constantRegistry.Discreet ∧
    (∀ call ∈ calls (run constantRegistry [Update.updater Unit] constantConfig { dryRun := true } ()).events,
      call.Harmless) ∧
    calls (Update.createPullRequests (Update.agreeable Update.pinnedText) Update.oneFileProject
        { dryRun := true } ()).events <+:
      calls (Update.createPullRequests (Update.agreeable Update.pinnedText) Update.oneFileProject
        { dryRun := false } ()).events := by
  have quiet : (Update.agreeable Update.pinnedText).Discreet :=
    (Update.agreeable_orderly Update.pinnedText_legible).discreet
  have discreet : constantRegistry.Discreet := by
    intro entry member token base state
    obtain rfl := List.mem_singleton.mp member
    refine ⟨rfl, fun host made => ?_⟩
    obtain rfl := Except.ok.inj made
    exact quiet
  obtain ⟨_, dry, ahead⟩ := dry_runs_only_read constantRegistry discreet constantConfig { dryRun := true }
    false ()
  have steady : (Update.agreeable Update.pinnedText).Steady :=
    ⟨fun call => ((Update.agreeable Update.pinnedText).perform call ()).result, fun _ _ => rfl⟩
  exact ⟨discreet, dry rfl, ahead _ quiet steady Update.oneFileProject {} () ()⟩

end Run

end InfraPins
