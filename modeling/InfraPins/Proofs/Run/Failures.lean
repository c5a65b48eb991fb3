import InfraPins.Config.Reading
import InfraPins.Proofs.Run.Rules
import InfraPins.Proofs.Update.Failures
import InfraPins.Proofs.Update.Protocol

namespace InfraPins

/-- A registry that fails only by report, and whose hosts do; their paths and tags are texts. -/
structure Registry.Textual {σ : Type} (registry : Registry σ) : Prop where
  opening : ∀ hostType token baseUrl state cause,
    (registry.openHost hostType token baseUrl state).result = .error cause →
      ∃ message, cause.hostMessage? = some message
  hosts : ∀ host, registry.Opens host → host.Textual

/-- The failures that a run over the hosts of a registry overlooks. -/
inductive Registry.Overlooked {σ : Type} (registry : Registry σ) (cause : Failure) : Prop where
  /-- The contents of a host are overlooked. -/
  | contents {host : Host σ} (opens : registry.Opens host) (overlooked : host.Overlooked cause)
  /-- A host cannot be let go of. -/
  | closing {host : Host σ} {state : σ} (opens : registry.Opens host)
      (failed : (host.close state).result = .error cause)

namespace Run

open Act

section Status

open Result

theorem needsUpgrade_ends (current latest : String) :
    Ends Failure.IsLong (needsUpgrade current (.text latest)) fun _ => True := by
  unfold needsUpgrade
  split
  · exact .ok trivial
  · exact Version.isNewerTag_text_ends current latest

theorem bumpName_ends (current : String) (latest : Datum) :
    Ends Failure.IsLong (bumpName current latest) fun _ => True := by
  refine Ends.bind (.mapError ((Version.bump?_ends _ _).mono fun _ long => ?_)) fun _ _ => .ok trivial
  exact Failure.isLong_version long

theorem status_ends {repository : Repository} {dependency : Dependency} {tags : List Datum}
    (texts : TextTags tags) :
    Ends Failure.IsLong (status repository dependency tags) fun _ => True := by
  -- Without tags the latest version is the empty text, so that it is a text in any case.
  obtain ⟨latest, textual⟩ : ∃ text, tags.head?.getD (.text "") = .text text := by
    cases tags with
    | nil => exact ⟨"", rfl⟩
    | cons tag rest => exact texts tag List.mem_cons_self
  unfold status
  rw [textual]
  refine (needsUpgrade_ends dependency.current latest).bind fun needed _ => ?_
  cases needed with
  | false => exact .ok trivial
  | true => exact (bumpName_ends _ _).bind fun _ _ => .ok trivial

end Status

variable {σ : Type} {registry : Registry σ}

theorem openHost_ends {fatal : Failure → Prop} (textual : registry.Textual)
    (hostType token baseUrl : String) :
    Ends (fun cause => cause.hostMessage? = none → fatal cause)
      (registry.openHost hostType token baseUrl) registry.Opens := by
  intro start
  constructor
  · intro cause failed untold
    obtain ⟨message, told⟩ := textual.opening hostType token baseUrl start cause failed
    cases untold.symm.trans told
  · intro host opened
    exact ⟨hostType, token, baseUrl, start, opened⟩

theorem overlooked_rules (textual : registry.Textual) :
    RunRules registry registry.Opens Host.MayGive fun {α} (act : Act σ α) good =>
      Ends registry.Overlooked act good where
  toRules := Ends.rules
  note _ _ := Ends.record
  opening hostType token baseUrl := (openHost_ends textual hostType token baseUrl).attempt
  reading host opens := Ends.readingRules (textual.hosts host opens).reporting
  closing host opens ends := by
    refine ends.ensuring (.seq .record fun _ start => ?_)
    exact ⟨fun _ failed => .closing opens failed, fun _ _ => trivial⟩

theorem list_ends (textual : registry.Textual) (config : Config) (options : RunOptions)
    (outdatedOnly : Bool) :
    Ends registry.Overlooked (list registry config options outdatedOnly) fun _ => True := by
  have readable (host : Host σ) (opens : registry.Opens host) :
      Readable host.MayGive (fun {α} (act : Act σ α) good => Ends registry.Overlooked act good)
        (fun _ => True) TextTags :=
    Ends.readable (textual.hosts host opens) fun _ overlooked => .contents opens overlooked
  refine list_goes (overlooked_rules textual) readable (fun host opens repository result tags _ texts =>
    .lift ?_) config outdatedOnly
  exact (status_ends texts).mono fun _ long => .contents opens (.number long)

theorem run_ends (textual : registry.Textual) (config : Config) (options : RunOptions) :
    Ends registry.Overlooked (run registry [Update.updater σ] config options) fun _ => True := by
  refine run_goes (overlooked_rules textual) fun host opens repository => ?_
  refine List.forall_mem_singleton.mpr ?_
  have rules := (overlooked_rules textual).reading host opens
  -- What an update fails for in its own right is counted, and does not abort the run.
  have ordered : Ends (fun cause => cause.updateMessage? = none → registry.Overlooked cause)
      (order options config (Update.updater σ) host repository) fun _ => True := by
    refine .seq .record fun _ => (Update.createPullRequests_ends (textual.hosts host opens)).mono ?_
    rintro cause (overlooked | ⟨message, rfl⟩) untold
    · exact .contents opens overlooked
    · cases untold
  exact update_goes rules (Update.detect_goes rules) (ordered.attempt.weaken fun _ _ => trivial)

/-- Whatever the files and the tags of textual hosts are, a scan and a plan fail only over what reading
them overlooks, and an update besides for want of a branch or a pull request; a run and a listing fail
only over what is overlooked in the contents of some host, or because one cannot be let go of. -/
theorem aborts_are_overlooked (registry : Registry σ) (textual : registry.Textual) :
    (∀ host : Host σ, host.Textual → ∀ repository start cause,
      ((Update.scanRepository host repository start).result = .error cause → host.Overlooked cause) ∧
      ((Update.plan host repository start).result = .error cause → host.Overlooked cause) ∧
      ∀ options, (Update.createPullRequests host repository options start).result = .error cause →
        host.Overlooked cause ∨ ∃ message, cause = .update message) ∧
    ∀ config options start cause,
      ((run registry [Update.updater σ] config options start).result = .error cause →
        registry.Overlooked cause) ∧
      ∀ outdatedOnly, (list registry config options outdatedOnly start).result = .error cause →
        registry.Overlooked cause := by
  constructor
  · intro host textual repository start cause
    refine ⟨(Update.scanRepository_ends textual start).fails cause,
      (Update.plan_ends textual start).fails cause, fun options => ?_⟩
    exact (Update.createPullRequests_ends textual start).fails cause
  · intro config options start cause
    refine ⟨(run_ends textual config options start).fails cause, fun outdatedOnly => ?_⟩
    exact (list_ends textual config options outdatedOnly start).fails cause

private def textRegistry (content : String) : Registry Unit :=
  [("memory", fun _ _ => pure (Update.agreeable content))]

private theorem agreeable_textual (content : String) : (Update.agreeable content).Textual where
  reporting := by
    intro call state cause failed
    cases call <;> cases failed
  paths := by
    rintro repository suffix entries ⟨state, listed⟩ entry member
    obtain rfl := Except.ok.inj listed
    split at member
    · cases List.mem_singleton.mp member
      exact ⟨"a.tf", rfl⟩
    · cases member
  tags := by
    rintro repository tags ⟨state, listed⟩ tag member
    obtain rfl := Except.ok.inj listed
    cases List.mem_singleton.mp member
    exact ⟨"v2", rfl⟩

private theorem textRegistry_textual (content : String) : (textRegistry content).Textual where
  opening _ _ _ _ _ := Registry.told_of_openHost_single
  hosts host opens := by
    rw [Registry.eq_of_opens_single opens]
    exact agreeable_textual content

private def textConfig : Config where
  providers := [⟨"memory", "t", ["o"], ""⟩]
  updaters := []

private theorem run_plain :
    (run (textRegistry "module = 1\n") [Update.updater Unit] textConfig {} ()).result =
      .error (.misuse .unsupported) := by
  decide +kernel

theorem aborts_are_overlooked_sample :
    (textRegistry "module = 1\n").Textual ∧ (Update.agreeable "module = 1\n").Textual ∧
      (Update.agreeable "module = 1\n").Overlooked (.misuse .unsupported) ∧
      (textRegistry "module = 1\n").Overlooked (.misuse .unsupported) := by
  have textual := textRegistry_textual "module = 1\n"
  have textual' := agreeable_textual "module = 1\n"
  obtain ⟨updates, runs⟩ := aborts_are_overlooked (textRegistry "module = 1\n") textual
  have scan : (Update.scanRepository (Update.agreeable "module = 1\n") Update.oneFileProject ()).result =
      .error (.misuse .unsupported) := by decide +kernel
  have contents := (updates _ textual' Update.oneFileProject () (.misuse .unsupported)).1 scan
  have run := (runs textConfig {} () (.misuse .unsupported)).1 run_plain
  exact ⟨textual, textual', contents, run⟩

/-- The text of one file can abort a run. -/
theorem not_runs_come_to_end :
    ¬ ∀ registry : Registry Unit, registry.Textual →
      (∀ host state, registry.Opens host → ∃ done, (host.close state).result = .ok done) →
        ∀ config options start, config.fault? = none → ∃ summary,
          (run registry [Update.updater Unit] config options start).result = .ok summary := by
  intro claimed
  have closes (host : Host Unit) (state : Unit) (opens : (textRegistry "module = 1\n").Opens host) :
      ∃ done, (host.close state).result = .ok done := by
    rw [Registry.eq_of_opens_single opens]
    exact ⟨(), rfl⟩
  have valid : textConfig.fault? = none := by decide +kernel
  obtain ⟨summary, came⟩ :=
    claimed _ (textRegistry_textual "module = 1\n") closes textConfig {} () valid
  cases run_plain.symm.trans came

end Run

end InfraPins
