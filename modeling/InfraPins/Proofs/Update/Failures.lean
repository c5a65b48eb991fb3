import InfraPins.Proofs.Datum
import InfraPins.Proofs.Scan.Legible
import InfraPins.Proofs.Update.Inquiry
import InfraPins.Proofs.Version.Faults

namespace InfraPins

namespace Scan

open Result

theorem images_ends (content : List Char) (path : String) :
    Ends Version.Fault.IsLong (images content path) fun _ => True := by
  have each (found : Match ImageAssignment) :
      Ends Version.Fault.IsLong (imageDependency? path found) fun _ => True := by
    refine (Version.isSemanticLike_ends found.value.tag).bind fun like _ => ?_
    cases like <;> exact .ok trivial
  exact (Ends.rules.mapM fun found _ => each found).bind fun _ _ => .ok trivial

theorem modulesByDocument_ends (content path : String) :
    Ends (fun cause => cause = .unsupported ∧ ¬ ModulesListed content)
      (modulesByDocument content path) fun _ => True := by
  unfold modulesByDocument
  split
  · exact .ok trivial
  · rename_i document read
    refine ((Datum.elements_ends _).mono ?_).bind fun _ _ => .ok trivial
    rintro _ ⟨rfl, none⟩
    refine ⟨rfl, fun listed => none ?_⟩
    -- A document without modules counts as one with none of them.
    cases found : Datum.lookup? (.text "module") document with
    | none => exact ⟨[], rfl⟩
    | some value => exact listed document value read found

/-- The scan of a text fails only over a number that is too long, or over a plain value where modules
should be. -/
theorem report_ends (content path : String) (format : FileFormat) :
    Ends (fun cause => cause.IsLong ∨ (cause = .misuse .unsupported ∧ ¬ ModulesListed content))
      (report content path format) fun _ => True := by
  cases format with
  | terragrunt =>
    refine Ends.bind (.mapError ((images_ends content.toList path).mono fun fault long => ?_))
      fun _ _ => .ok trivial
    exact .inl (Failure.isLong_version long)
  | terraform =>
    refine Ends.bind (.mapError ((modulesByDocument_ends content path).mono ?_)) fun trusted _ => ?_
    · rintro _ ⟨rfl, unlisted⟩
      exact .inr ⟨rfl, unlisted⟩
    · cases trusted <;> exact .ok trivial

end Scan

def TextTags (tags : List Datum) : Prop :=
  ∀ tag ∈ tags, ∃ text, tag = .text text

namespace Plan

open Result

theorem upgrade?_ends {current : String} {tags : List Datum} (texts : TextTags tags) :
    Ends Failure.IsLong (upgrade? current tags) fun _ => True := by
  unfold upgrade?
  split
  · exact .ok trivial
  · obtain ⟨text, rfl⟩ := texts _ List.mem_cons_self
    split
    · exact .ok trivial
    · refine (Version.isNewerTag_text_ends current text).bind fun newer _ => ?_
      cases newer <;> exact .ok trivial

/-- With tags that are texts, planning fails only over a number that is too long. -/
theorem tasks_ends {answers : Answers} {scanned : List ScanResult}
    (texts : ∀ result ∈ scanned, TextTags (answers.tags result.dependency.source)) :
    Ends Failure.IsLong (tasks answers scanned) fun _ => True := by
  have each : ∀ result ∈ scanned, Ends Failure.IsLong (task? answers result) fun _ => True :=
    fun result member => (upgrade?_ends (texts result member)).bind fun _ _ => .ok trivial
  exact (Ends.rules.mapM each).bind fun _ _ => .ok trivial

end Plan

/-- A host that fails only by report, and whose paths and tags are texts. -/
structure Host.Textual {σ : Type} (host : Host σ) : Prop where
  reporting : host.Reporting
  paths : ∀ repository suffix entries, host.MayGive (.listFiles repository suffix) entries →
    ∀ entry ∈ entries, ∃ path, entry.path = .text path
  tags : ∀ repository tags, host.MayGive (.listTags repository) tags → TextTags tags

/-- The failures over the contents of a host that reading them overlooks. -/
inductive Host.Overlooked {σ : Type} (host : Host σ) : Failure → Prop where
  /-- A version has a number that is too long to be read. -/
  | number {cause : Failure} (long : cause.IsLong) : host.Overlooked cause
  /-- The document of a file has a plain value where its modules should be. -/
  | value {repository : Repository} {path content : String}
      (given : host.MayGive (.fetchFile repository path) content)
      (unlisted : ¬ Scan.ModulesListed content) : host.Overlooked (.misuse .unsupported)

namespace Act.Ends

variable {σ α : Type} {fatal : Failure → Prop} {host : Host σ}

/-- A host that fails only by report fails for no cause without a message. -/
theorem ask (reporting : host.Reporting) (call : Call) :
    Ends (fun cause => cause.hostMessage? = none → fatal cause) (host.ask call) (host.MayGive call) := by
  intro start
  constructor
  · intro cause failed untold
    obtain ⟨message, told⟩ := reporting call start cause failed
    cases untold.symm.trans told
  · intro value came
    exact ⟨start, came⟩

theorem readingRules (reporting : host.Reporting) :
    ReadingRules host host.MayGive fun {α} (act : Act σ α) good => Ends fatal act good where
  toRules := rules
  note _ _ := record
  ask call _ := (ask reporting call).attempt

theorem readable (textual : host.Textual) (overlooks : ∀ cause, host.Overlooked cause → fatal cause) :
    Readable host.MayGive (fun {α} (act : Act σ α) good => Ends fatal act good) (fun _ => True)
      TextTags where
  paths repository suffix entries given entry member := by
    obtain ⟨path, textual⟩ := textual.paths repository suffix entries given entry member
    refine .use ?_
    rw [textual]
    exact .ok trivial
  scans repository path content format given := by
    refine .lift (((Scan.report_ends content path format).mono ?_).weaken fun _ _ _ _ => trivial)
    rintro cause (long | ⟨rfl, unlisted⟩)
    · exact overlooks cause (.number long)
    · exact overlooks _ (.value given unlisted)
  tags := textual.tags
  none := nofun

end Act.Ends

namespace Update

open Act

variable {σ : Type} {fatal : Failure → Prop} {host : Host σ} {repository : Repository}
  {options : UpdateOptions}

theorem scanRepository_ends (textual : host.Textual) :
    Ends host.Overlooked (scanRepository host repository) fun _ => True :=
  (scanRepository_goes (Ends.readingRules textual.reporting)
    (Ends.readable textual fun _ => id)).weaken fun _ _ => trivial

theorem plan_ends (textual : host.Textual) :
    Ends host.Overlooked (plan host repository) fun _ => True := by
  refine plan_goes (Ends.readingRules textual.reporting) (Ends.readable textual fun _ => id) trivial
    fun answers scanned covers _ => .lift ?_
  exact (Plan.tasks_ends fun _ => covers.tags).mono fun _ => .number

private theorem publishing_ends (reporting : host.Reporting)
    (told : ∀ message, fatal (.update message)) (opening : String) (call : Call) :
    Ends fatal (publishing opening (host.ask call)) fun _ => True := by
  refine (Ends.ask reporting call).attempt.bind fun answer _ => ?_
  cases answer with
  | ok value => exact .pure trivial
  | error message => exact .fail (told _)

private theorem pullRequestOpen_ends (reporting : host.Reporting) {branch : String} :
    Ends fatal (pullRequestOpen host repository branch) fun _ => True := by
  refine (Ends.ask reporting (.pullRequestExists repository branch)).attempt.bind fun answer _ => ?_
  cases answer with
  | ok found => exact .pure trivial
  | error message => exact .seq .log fun _ => .pure trivial

private theorem withChangelog_ends (reporting : host.Reporting) {tasks : List UpgradeTask}
    {changes : List FileChange} :
    Ends fatal (withChangelog host repository tasks changes) fun _ => True := by
  -- One attempt covers both questions: a refusal of either leaves the changes as they are.
  have read : Ends (fun cause => cause.hostMessage? = none → fatal cause) (do
      if (← host.askHasFile repository Changelog.path) then
        return some (← host.askContent repository Changelog.path)
      else return none) fun _ => True := by
    refine (Ends.ask reporting (.hasFile repository Changelog.path)).bind fun kept _ => ?_
    split
    · exact (Ends.ask reporting (.fetchFile repository Changelog.path)).bind fun _ _ => .pure trivial
    · exact .pure trivial
  refine read.attempt.bind fun answer _ => ?_
  split
  · dsimp only
    split
    · exact .pure trivial
    · exact .pure trivial
  · exact .pure trivial
  · exact .seq .log fun _ => .pure trivial

private theorem publish_ends (reporting : host.Reporting) (told : ∀ message, fatal (.update message))
    {tasks : List UpgradeTask} {changes : List FileChange} :
    Ends fatal (publish host repository options tasks changes) fun _ => True := by
  refine .seq (pullRequestOpen_ends reporting) fun found => ?_
  split
  · exact .seq .log fun _ => .pure trivial
  · refine .seq (withChangelog_ends reporting) fun changes => ?_
    refine .seq (publishing_ends reporting told _ (.createBranch repository _)) fun _ => ?_
    refine .seq (publishing_ends reporting told _ (.openPullRequest repository _)) fun request => ?_
    exact .seq .log fun _ => .pure trivial

/-- An update ends, or fails for want of a branch or a pull request, or over what is overlooked. -/
theorem createPullRequests_ends (textual : host.Textual) :
    Ends (fun cause => host.Overlooked cause ∨ ∃ message, cause = .update message)
      (createPullRequests host repository options) fun _ => True := by
  refine .seq .log fun _ => .seq ((plan_ends textual).mono fun _ => .inl) fun tasks => ?_
  unfold proceed
  split
  · exact .seq .log fun _ => .pure trivial
  · refine .seq .log fun _ => ?_
    split
    · exact .seq (Ends.rules.forM fun _ _ => .log) fun _ => .pure trivial
    · refine .seq (Ends.rules.forM fun _ _ => .log) fun _ => ?_
      split
      · exact .seq .log fun _ => .pure trivial
      · exact publish_ends textual.reporting fun message => .inr ⟨message, rfl⟩

end Update

end InfraPins
