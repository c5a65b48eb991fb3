import InfraPins.Proofs.Journal
import InfraPins.Proofs.Update.Reading

namespace InfraPins

open Act

namespace Act

variable {σ α β : Type}

/-- An operation whose result does not depend on the state; a value that it comes to has a
property. -/
def Settles (act : Act σ α) (good : α → Prop) : Prop :=
  ∃ result, (∀ state, (act state).result = result) ∧ ∀ value, result = .ok value → good value

namespace Settles

theorem lift {computed : Except Failure α} {good : α → Prop}
    (holds : ∀ value, computed = .ok value → good value) : Settles (Act.lift computed : Act σ α) good :=
  ⟨computed, fun _ => rfl, holds⟩

theorem pure {value : α} {good : α → Prop} (holds : good value) :
    Settles (Pure.pure value : Act σ α) good :=
  ⟨.ok value, fun _ => rfl, fun _ same => Except.ok.inj same ▸ holds⟩

theorem note {event : Event} : Settles (Act.record event : Act σ Unit) fun _ => True :=
  ⟨.ok (), fun _ => rfl, fun _ _ => trivial⟩

theorem bind {first : Act σ α} {next : α → Act σ β} {middle : α → Prop} {good : β → Prop}
    (head : Settles first middle) (rest : ∀ value, middle value → Settles (next value) good) :
    Settles (first >>= next) good := by
  obtain ⟨result, always, holds⟩ := head
  cases result with
  | error cause =>
    refine ⟨.error cause, fun state => ?_, nofun⟩
    have failed := always state
    rw [bind_apply]
    generalize first state = outcome at failed
    obtain ⟨result, events, last⟩ := outcome
    obtain rfl : result = .error cause := failed
    rfl
  | ok value =>
    obtain ⟨result, always', holds'⟩ := rest value (holds value rfl)
    refine ⟨result, fun state => ?_, holds'⟩
    have came := always state
    rw [bind_apply]
    generalize first state = outcome at came
    obtain ⟨result', events, last⟩ := outcome
    obtain rfl : result' = .ok value := came
    exact always' last

theorem rules : Rules fun {α} (act : Act σ α) good => Settles act good :=
  ⟨pure, bind⟩

end Settles

end Act

/-- An answer to every call. -/
abbrev Replies := (call : Call) → Except Failure call.Answer

/-- A host whose answers depend on the call alone. They are proper values, or reported failures. -/
structure Host.Gives {σ : Type} (host : Host σ) (replies : Replies) : Prop where
  steady : ∀ call state, (host.perform call state).result = replies call
  reporting : ∀ call cause, replies call = .error cause → ∃ message, cause.hostMessage? = some message
  proper : ∀ call answer, replies call = .ok answer → call.Proper answer

namespace Replies

variable (replies : Replies) (organization : String)

/-- The repositories of the organization, if they are told. -/
def listing : Option (List Repository) :=
  (replies (.discover organization)).toOption

/-- The tags of a repository; none if they are not told. -/
def tagsOf (repository : Repository) : List Datum :=
  (replies (.listTags repository)).toOption.getD []

def named? (name : String) : Option Repository :=
  ((replies.listing organization).getD []).find? (·.name = .text name)

def sourceTags (source : String) : List Datum :=
  let name := String.ofList (Source.repositoryName source.toList)
  if name.isEmpty then []
  else ((replies.named? organization name).map replies.tagsOf).getD []

end Replies

/-- A memo that holds only what asking again would bring. -/
structure TagMemo.Valid (replies : Replies) (organization : String) (memo : TagMemo) : Prop where
  listing : ∀ known, memo.listing = some known → known = replies.listing organization
  tags : ∀ name known, memo.tags.lookup name = some known →
    ∃ repository, replies.named? organization name = some repository ∧
      known = replies.tagsOf repository

theorem TagMemo.valid_empty {replies : Replies} {organization : String} :
    TagMemo.empty.Valid replies organization :=
  ⟨nofun, nofun⟩

namespace Update

variable {σ : Type} {host : Host σ} {replies : Replies} {organization : String} {memo : TagMemo}
  {fatal : Failure → Prop} {start : σ}

/-- An attempt at a call brings the host's answer to it. -/
theorem ask_leads (gives : host.Gives replies) (call : Call) :
    Leads fatal ((host.ask call).attempt Failure.hostMessage?) start fun answer _ _ =>
      answer.toOption = (replies call).toOption := by
  have steady : ((host.ask call) start).result = replies call := gives.steady call start
  refine .attempt (fun value _ _ came => ?_) fun cause _ _ came => ?_
  · rw [← steady, came.1]
    rfl
  · have refused : replies call = .error cause := steady.symm.trans came.1
    obtain ⟨message, told⟩ := gives.reporting call cause refused
    exact ⟨message, told, by rw [refused]; rfl⟩

theorem listing_leads (gives : host.Gives replies) (valid : memo.Valid replies organization) :
    Leads fatal (Resolve.listing host organization memo) start fun found _ _ =>
      found.1 = replies.listing organization ∧ found.2.Valid replies organization := by
  unfold Resolve.listing
  split
  · rename_i known kept
    exact .pure ⟨valid.listing known kept, valid⟩
  · refine .bind ((ask_leads gives (.discover organization)).weaken fun answer _ _ came => ?_)
    have valid' {listing : Option (List Repository)} (same : listing = replies.listing organization) :
        TagMemo.Valid replies organization { memo with listing := some listing } :=
      ⟨fun known kept => (Option.some.inj kept) ▸ same, valid.tags⟩
    cases answer with
    | ok repositories => exact .pure ⟨came, valid' came⟩
    | error message => exact .bind (.log (.pure ⟨came, valid' came⟩))

theorem tagsOf_leads (gives : host.Gives replies) (valid : memo.Valid replies organization)
    {repository : Repository} {name : String}
    (named : replies.named? organization name = some repository) :
    Leads fatal (Resolve.tagsOf host repository name memo) start fun found _ _ =>
      found.1 = replies.tagsOf repository ∧ found.2.Valid replies organization := by
  unfold Resolve.tagsOf
  split
  · rename_i known kept
    obtain ⟨other, named', same⟩ := valid.tags name known kept
    obtain rfl := Option.some.inj (named'.symm.trans named)
    exact .pure ⟨same, valid⟩
  · refine .bind ((ask_leads gives (.listTags repository)).weaken fun answer _ _ came => ?_)
    have valid' {tags : List Datum} (same : tags = replies.tagsOf repository) :
        TagMemo.Valid replies organization { memo with tags := (name, tags) :: memo.tags } := by
      refine ⟨valid.listing, fun other known kept => ?_⟩
      by_cases here : other = name
      · subst here
        rw [List.lookup_cons_self] at kept
        exact ⟨repository, named, (Option.some.inj kept).symm.trans same⟩
      · rw [List.lookup_cons, beq_false_of_ne here] at kept
        exact valid.tags other known kept
    cases answer with
    | ok tags =>
      have same : tags = replies.tagsOf repository := by
        rw [Replies.tagsOf, ← came]
        rfl
      exact .pure ⟨same, valid' same⟩
    | error message =>
      have same : [] = replies.tagsOf repository := by
        rw [Replies.tagsOf, ← came]
        rfl
      exact .bind (.log (.pure ⟨same, valid' same⟩))

/-- Looking up a source with a valid memo brings its tags, and leaves a valid memo. -/
theorem resolve_leads (gives : host.Gives replies) (valid : memo.Valid replies organization)
    (source : String) :
    Leads fatal (Resolve.resolve host organization source memo) start fun found _ _ =>
      found.1 = replies.sourceTags organization source ∧ found.2.Valid replies organization := by
  unfold Resolve.resolve Replies.sourceTags
  dsimp only
  split
  · exact .pure ⟨rfl, valid⟩
  · refine .bind ((listing_leads gives valid).weaken ?_)
    rintro ⟨listing, memo'⟩ events middle ⟨rfl, valid'⟩
    dsimp only
    cases listed : replies.listing organization with
    | none => exact .pure ⟨by simp [Replies.named?, listed], valid'⟩
    | some repositories =>
      cases repositories with
      | nil => exact .pure ⟨by simp [Replies.named?, listed], valid'⟩
      | cons first rest =>
        have names {name : String} : replies.named? organization name =
            (first :: rest).find? (·.name = .text name) := by
          simp [Replies.named?, listed]
        dsimp only
        split
        · rename_i repository found
          have named := names.trans found
          exact (tagsOf_leads gives valid' named).weaken fun _ _ _ ⟨same, kept⟩ =>
            ⟨by simp [named, same], kept⟩
        · rename_i unknown
          exact .bind (.log (.pure ⟨by simp [names.trans unknown], valid'⟩))

variable {repository : Repository}

private theorem ask_settles (gives : host.Gives replies) (call : Call) :
    Settles ((host.ask call).attempt Failure.hostMessage?) fun answer =>
      ∀ value, answer = .ok value → replies call = .ok value := by
  have steady (state : σ) : ((host.ask call) state).result = replies call := gives.steady call state
  cases reply : replies call with
  | ok value =>
    refine ⟨.ok (.ok value), fun state => ?_, fun _ same other equal => ?_⟩
    · simp only [Act.attempt, steady, reply]
    · obtain rfl := Except.ok.inj same
      rw [Except.ok.inj equal]
  | error cause =>
    obtain ⟨message, told⟩ := gives.reporting call cause reply
    refine ⟨.ok (.error message), fun state => ?_, ?_⟩
    · simp only [Act.attempt, steady, reply, told]
    · rintro _ ⟨⟩ _ ⟨⟩

private theorem settles_rules (gives : host.Gives replies) :
    FreeReadingRules host (fun call value => replies call = .ok value) fun {α} (act : Act σ α) good =>
      Settles act good where
  toRules := Settles.rules
  lift := Settles.lift
  note := fun _ _ => Settles.note
  ask := fun call _ => ask_settles gives call

/-- The scan of a repository comes to one result, whatever was done before. -/
theorem scanRepository_settles (gives : host.Gives replies) :
    Settles (scanRepository host repository) AllLegible := by
  have rules := settles_rules gives
  refine scanRepository_goes rules.toReadingRules (rules.readable ?_)
  intro repository path content format report given scanned
  have legible : Scan.Legible content := gives.proper _ content given
  exact legible.of_report scanned

private theorem leads_rules :
    Rules fun {α} (act : Act σ α) good => ∀ start, Leads fatal act start fun value _ _ => good value where
  pure := fun holds _ => .pure holds
  bind := fun head rest start => .bind ((head start).weaken fun value _ middle here =>
    rest value here middle)

private theorem askAll_leads (gives : host.Gives replies) {scanned : List ScanResult} :
    Leads fatal
      ((Plan.askAll (Resolve.resolveWithMemo host organization) [] scanned).run TagMemo.empty) start
      fun found _ _ => found.1.Covers (fun source tags => tags = replies.sourceTags organization source)
        scanned ∧ found.2.Valid replies organization := by
  have asks (source : String) (memo : TagMemo) (valid : memo.Valid replies organization) (start : σ) :
      Leads fatal ((Resolve.resolveWithMemo host organization source).run memo) start fun found _ _ =>
        found.1 = replies.sourceTags organization source ∧ found.2.Valid replies organization := by
    rw [resolveWithMemo_run]
    exact resolve_leads gives valid source
  have rules : Rules fun {α} (act : StateT TagMemo (Act σ) α) good =>
      ∀ memo : TagMemo, memo.Valid replies organization → ∀ start,
        Leads fatal (act.run memo) start fun found _ _ =>
          good found.1 ∧ found.2.Valid replies organization := leads_rules.stateT
  exact Plan.askAll_goes rules (fun source tags => tags = replies.sourceTags organization source) asks
    TagMemo.empty TagMemo.valid_empty start

/-- The upgrades of scan results, with the tags of each source for its answer. -/
def Planned (replies : Replies) (organization : String) (scanned : List ScanResult)
    (computed : Except Failure (List UpgradeTask)) : Prop :=
  ∃ answers : Plan.Answers, (∀ result ∈ scanned, answers.tags result.dependency.source =
      replies.sourceTags organization result.dependency.source) ∧
    computed = Plan.tasks answers scanned

/-- A plan is made of what the scan of its repository finds. -/
theorem plan_result (gives : host.Gives replies) {scanned : List ScanResult}
    (scan : ∀ state, (scanRepository host repository state).result = .ok scanned) (state : σ) :
    Planned replies repository.organization scanned (plan host repository state).result := by
  have leads : Leads (fun cause => Planned replies repository.organization scanned (.error cause))
      (plan host repository) state
      fun tasks _ _ => Planned replies repository.organization scanned (.ok tasks) := by
    have found : Leads (fun cause => Planned replies repository.organization scanned (.error cause))
        (scanRepository host repository) state fun results _ _ => scanned = results := by
      refine ⟨fun cause failed => ?_, fun _ _ _ came => ?_⟩
      · cases (scan state).symm.trans failed
      · exact Except.ok.inj ((scan state).symm.trans came.1)
    refine .bind (found.weaken ?_)
    rintro _ events middle rfl
    split
    · rename_i none
      obtain rfl := List.isEmpty_iff.mp none
      exact .pure ⟨[], nofun, rfl⟩
    · refine .bind ((askAll_leads gives).weaken ?_)
      rintro ⟨answers, memo⟩ more last ⟨covers, _⟩
      have fits : ∀ result ∈ scanned, answers.tags result.dependency.source =
          replies.sourceTags repository.organization result.dependency.source :=
        fun result member => covers.tags member
      exact .lift (fun _ failed => ⟨answers, fits, failed.symm⟩)
        fun _ came => ⟨answers, fits, came.symm⟩
  cases came : (plan host repository state).result with
  | error cause => exact leads.fails cause came
  | ok tasks => exact leads.comes tasks _ _ ⟨came, rfl, rfl⟩

theorem plan_result_of_error {cause : Failure}
    (scan : ∀ state, (scanRepository host repository state).result = .error cause) (state : σ) :
    (plan host repository state).result = .error cause := by
  have failed := scan state
  unfold plan
  rw [bind_apply]
  generalize scanRepository host repository state = outcome at failed
  obtain ⟨result, events, last⟩ := outcome
  obtain rfl : result = .error cause := failed
  rfl

theorem legible_sourceTags (gives : host.Gives replies) (source : String) :
    LegibleTags (replies.sourceTags organization source) := by
  unfold Replies.sourceTags
  dsimp only
  split
  · exact nofun
  · cases replies.named? organization (String.ofList (Source.repositoryName source.toList)) with
    | none => exact nofun
    | some repository =>
      show LegibleTags (replies.tagsOf repository)
      unfold Replies.tagsOf
      cases reply : replies (.listTags repository) with
      | error cause => exact nofun
      | ok tags => exact gives.proper _ tags reply

end Update

end InfraPins
