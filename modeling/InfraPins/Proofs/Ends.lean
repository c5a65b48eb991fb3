import InfraPins.Proofs.Result
import InfraPins.Proofs.Rules

namespace InfraPins

/-- A computation that fails for fatal causes only, and whose value has a property. -/
structure Result.Ends {ε α : Type} (fatal : ε → Prop) (result : Except ε α) (good : α → Prop) :
    Prop where
  fails : ∀ cause, result = .error cause → fatal cause
  gives : ∀ value, result = .ok value → good value

namespace Result.Ends

variable {ε α β : Type} {fatal : ε → Prop}

theorem ok {value : α} {good : α → Prop} (holds : good value) : Ends fatal (.ok value) good where
  fails := nofun
  gives := by
    intro other same
    exact Except.ok.inj same ▸ holds

theorem error {cause : ε} {good : α → Prop} (holds : fatal cause) :
    Ends fatal (.error cause) good where
  fails := by
    intro other same
    exact Except.error.inj same ▸ holds
  gives := nofun

theorem bind {first : Except ε α} {next : α → Except ε β} {middle : α → Prop} {good : β → Prop}
    (head : Ends fatal first middle) (rest : ∀ value, middle value → Ends fatal (next value) good) :
    Ends fatal (first >>= next) good := by
  cases first with
  | error cause => exact error (head.fails cause rfl)
  | ok value => exact rest value (head.gives value rfl)

theorem rules : Rules fun {α} (result : Except ε α) good => Ends fatal result good :=
  ⟨ok, bind⟩

theorem weaken {result : Except ε α} {good other : α → Prop} (ends : Ends fatal result good)
    (implies : ∀ value, good value → other value) : Ends fatal result other where
  fails := ends.fails
  gives value came := implies value (ends.gives value came)

theorem mono {worse : ε → Prop} {result : Except ε α} {good : α → Prop}
    (ends : Ends fatal result good) (implies : ∀ cause, fatal cause → worse cause) :
    Ends worse result good where
  fails cause came := implies cause (ends.fails cause came)
  gives := ends.gives

theorem map {result : Except ε α} {good : β → Prop} {change : α → β}
    (ends : Ends fatal result fun value => good (change value)) :
    Ends fatal (result.map change) good := by
  cases result with
  | error cause => exact error (ends.fails cause rfl)
  | ok value => exact ok (ends.gives value rfl)

theorem mapError {δ : Type} {worse : δ → Prop} {change : ε → δ} {result : Except ε α}
    {good : α → Prop} (ends : Ends (fun cause => worse (change cause)) result good) :
    Ends worse (result.mapError change) good := by
  cases result with
  | error cause => exact error (ends.fails cause rfl)
  | ok value => exact ok (ends.gives value rfl)

/-- What a computation came to is known where it is gone on with. -/
theorem known {result : Except ε α} (fails : ∀ cause, result = .error cause → fatal cause) :
    Ends fatal result fun value => result = .ok value :=
  ⟨fails, fun _ => id⟩

end Result.Ends

namespace Act

variable {σ α β : Type} {fatal : Failure → Prop}

/-- An operation that fails for fatal causes only, and whose values have a property. -/
def Ends (fatal : Failure → Prop) (act : Act σ α) (good : α → Prop) : Prop :=
  ∀ start, Result.Ends fatal (act start).result good

namespace Ends

theorem pure {value : α} {good : α → Prop} (holds : good value) :
    Ends fatal (Pure.pure value : Act σ α) good :=
  fun _ => .ok holds

theorem lift {result : Except Failure α} {good : α → Prop}
    (ends : Result.Ends fatal result good) : Ends fatal (Act.lift result : Act σ α) good :=
  fun _ => ends

theorem use {result : Except Misuse α} {good : α → Prop}
    (ends : Result.Ends (fun cause => fatal (.misuse cause)) result good) :
    Ends fatal (Act.use result : Act σ α) good :=
  lift ends.mapError

theorem fail {cause : Failure} {good : α → Prop} (holds : fatal cause) :
    Ends fatal (Act.fail cause : Act σ α) good :=
  fun _ => .error holds

theorem record {event : Event} : Ends fatal (Act.record event : Act σ Unit) fun _ => True :=
  fun _ => .ok trivial

theorem log {level : Level} {text : String} :
    Ends fatal (Act.log level text : Act σ Unit) fun _ => True :=
  record

theorem bind {first : Act σ α} {next : α → Act σ β} {middle : α → Prop} {good : β → Prop}
    (head : Ends fatal first middle) (rest : ∀ value, middle value → Ends fatal (next value) good) :
    Ends fatal (first >>= next) good := by
  intro start
  have begun := head start
  rw [bind_apply]
  generalize first start = outcome at begun
  obtain ⟨result, events, left⟩ := outcome
  cases result with
  | error cause => exact .error (begun.fails cause rfl)
  | ok value => exact rest value (begun.gives value rfl) left

theorem rules : Rules fun {α} (act : Act σ α) good => Ends fatal act good :=
  ⟨pure, bind⟩

/-- One operation after another, whatever the first came to. -/
theorem seq {first : Act σ α} {next : α → Act σ β} {good : β → Prop}
    (head : Ends fatal first fun _ => True) (rest : ∀ value, Ends fatal (next value) good) :
    Ends fatal (first >>= next) good :=
  head.bind fun value _ => rest value

theorem weaken {act : Act σ α} {good other : α → Prop} (ends : Ends fatal act good)
    (implies : ∀ value, good value → other value) : Ends fatal act other :=
  fun start => (ends start).weaken implies

theorem mono {worse : Failure → Prop} {act : Act σ α} {good : α → Prop}
    (ends : Ends fatal act good) (implies : ∀ cause, fatal cause → worse cause) :
    Ends worse act good :=
  fun start => (ends start).mono implies

theorem mapFailure {change : Failure → Failure} {act : Act σ α} {good : α → Prop}
    (ends : Ends (fun cause => fatal (change cause)) act good) :
    Ends fatal (act.mapFailure change) good :=
  fun start => (ends start).mapError

theorem attempt {act : Act σ α} {message? : Failure → Option String} {good : α → Prop}
    (ends : Ends (fun cause => message? cause = none → fatal cause) act good) :
    Ends fatal (act.attempt message?) fun attempted =>
      ∀ value, attempted = .ok value → good value := by
  intro start
  have begun := ends start
  simp only [Act.attempt]
  cases came : (act start).result with
  | ok value =>
    refine .ok fun other same => ?_
    exact Except.ok.inj same ▸ begun.gives value came
  | error cause =>
    dsimp only
    split
    · exact .ok nofun
    · rename_i untold
      exact .error (begun.fails cause came untold)

/-- What is done at last may fail in its own right. -/
theorem ensuring {act : Act σ α} {last : Act σ Unit} {good : α → Prop} (ends : Ends fatal act good)
    (closes : Ends fatal last fun _ => True) : Ends fatal (act.ensuring last) good := by
  intro start
  have closed := closes (act start).state
  simp only [Act.ensuring]
  split
  · exact ends start
  · rename_i cause failed
    exact .error (closed.fails cause failed)

end Ends

end Act

end InfraPins
