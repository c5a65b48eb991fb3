import InfraPins.Journal
import Mathlib.Data.List.Forall2

/-! Operations that their journals do not tell apart. Two operations are alike if, from each state, they
leave the same journal and the same state, and either both fail for one cause or both come to a value. What
is put together from operations that are alike is alike, so that the values do not show in the journal as
long as no operation writes them there. -/

namespace InfraPins

variable {σ α β γ δ : Type}

/-- Two outcomes that differ in nothing but their values, which are related. -/
inductive Outcome.Alike (related : α → β → Prop) : Outcome σ α → Outcome σ β → Prop where
  | gives {value : α} {other : β} {events : List Event} {last : σ} (values : related value other) :
    Alike related ⟨.ok value, events, last⟩ ⟨.ok other, events, last⟩
  | fails {cause : Failure} {events : List Event} {last : σ} :
    Alike related ⟨.error cause, events, last⟩ ⟨.error cause, events, last⟩

namespace Outcome.Alike

variable {related : α → β → Prop} {outcome : Outcome σ α} {other : Outcome σ β}

theorem events_eq (alike : outcome.Alike related other) : outcome.events = other.events := by
  cases alike with
  | gives => rfl
  | fails => rfl

theorem prepend (alike : outcome.Alike related other) (events : List Event) :
    Outcome.Alike related ⟨outcome.result, events ++ outcome.events, outcome.state⟩
      ⟨other.result, events ++ other.events, other.state⟩ := by
  cases alike with
  | gives values => exact .gives values
  | fails => exact .fails

end Outcome.Alike

namespace Act

/-- Two operations that differ in nothing but the values they come to, which are related. -/
def Alike (related : α → β → Prop) (act : Act σ α) (other : Act σ β) : Prop :=
  ∀ start, (act start).Alike related (other start)

namespace Alike

variable {related : α → β → Prop} {further : γ → δ → Prop}

theorem refl {related : α → α → Prop} (act : Act σ α) (same : ∀ value, related value value) :
    Alike related act act := by
  intro start
  cases outcome : act start with
  | mk result events last =>
    cases result with
    | ok value => exact .gives (same value)
    | error cause => exact .fails

theorem pure {value : α} {other : β} (values : related value other) :
    Alike related (Pure.pure value : Act σ α) (Pure.pure other) :=
  fun _ => .gives values

theorem bind {act : Act σ α} {other : Act σ β} {next : α → Act σ γ} {next' : β → Act σ δ}
    (head : Alike related act other)
    (rest : ∀ value value', related value value' → Alike further (next value) (next' value')) :
    Alike further (act >>= next) (other >>= next') := by
  intro start
  have first := head start
  rw [bind_apply, bind_apply]
  generalize act start = outcome, other start = outcome' at first ⊢
  cases first with
  | gives values => exact (rest _ _ values _).prepend _
  | fails => exact .fails

/-- One operation, and then operations that are alike for each value that it may come to. -/
theorem seq (act : Act σ α) {next : α → Act σ γ} {next' : α → Act σ δ}
    (rest : ∀ value, Alike further (next value) (next' value)) :
    Alike further (act >>= next) (act >>= next') := by
  refine (refl act fun _ => rfl).bind ?_
  rintro value _ rfl
  exact rest value

/-- Operations for the items of two lists in step. -/
theorem mapM {items : List α} {others : List β} {act : α → Act σ γ} {other : β → Act σ δ}
    (inStep : List.Forall₂ related items others)
    (each : ∀ item item', related item item' → Alike further (act item) (other item')) :
    Alike (List.Forall₂ further) (items.mapM act) (others.mapM other) := by
  induction inStep with
  | nil => exact pure .nil
  | cons here _ ih =>
    rw [List.mapM_cons, List.mapM_cons]
    refine (each _ _ here).bind fun value value' first => ih.bind fun values values' others => ?_
    exact pure (.cons first others)

end Alike

end Act

end InfraPins
