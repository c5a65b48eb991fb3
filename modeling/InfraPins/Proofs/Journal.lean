import InfraPins.Journal

namespace InfraPins

def deeds (events : List Event) : List Event :=
  events.filter fun event => match event with
    | .log _ _ => false
    | _ => true

@[simp]
theorem deeds_nil : deeds [] = [] := rfl

@[simp]
theorem deeds_append (events more : List Event) :
    deeds (events ++ more) = deeds events ++ deeds more :=
  List.filter_append _ _

/-- What is in two parts is split in the first or behind it. -/
theorem append_split {α : Type} {front back before after : List α} {value : α}
    (same : front ++ back = before ++ value :: after) :
    (∃ rest, front = before ++ value :: rest) ∨
      ∃ rest, before = front ++ rest ∧ back = rest ++ value :: after := by
  rcases List.append_eq_append_iff.mp same with ⟨rest, behind, tail⟩ | ⟨rest, behind, tail⟩
  · exact .inr ⟨rest, behind, tail⟩
  · cases rest with
    | nil => exact .inr ⟨[], by simp [behind], by simpa using tail.symm⟩
    | cons other rest =>
      obtain ⟨rfl, _⟩ := List.cons_eq_cons.mp tail
      exact .inl ⟨rest, behind⟩

/-- Things that happen one after another, each where the one before it ended, with the journal that
they leave. -/
inductive Chain {ι S : Type} (step : ι → S → List Event → S → Prop) :
    List ι → S → List Event → S → Prop where
  | nil {start : S} : Chain step [] start [] start
  | cons {first : ι} {rest : List ι} {start middle last : S} {events more : List Event}
      (head : step first start events middle) (tail : Chain step rest middle more last) :
      Chain step (first :: rest) start (events ++ more) last

namespace Act

variable {σ α β : Type} {fatal : Failure → Prop}

/-- An operation comes to a result and a state, with a journal besides its log. -/
def Comes (act : Act σ α) (start : σ) (result : Except Failure α) (events : List Event)
    (last : σ) : Prop :=
  (act start).result = result ∧ deeds (act start).events = events ∧ (act start).state = last

/-- An operation fails for fatal causes only; a value that it gives, its journal besides the log and
the state that it leaves have a property together. -/
structure Leads (fatal : Failure → Prop) (act : Act σ α) (start : σ)
    (good : α → List Event → σ → Prop) : Prop where
  fails : ∀ cause, (act start).result = .error cause → fatal cause
  comes : ∀ value events last, act.Comes start (.ok value) events last → good value events last

namespace Leads

variable {start : σ}

theorem pure {value : α} {good : α → List Event → σ → Prop} (holds : good value [] start) :
    Leads fatal (Pure.pure value) start good where
  fails := nofun
  comes := by
    rintro _ _ _ ⟨same, rfl, rfl⟩
    obtain rfl := Except.ok.inj same
    exact holds

theorem log {level : Level} {text : String} {good : Unit → List Event → σ → Prop}
    (holds : good () [] start) : Leads fatal (Act.log level text) start good where
  fails := nofun
  comes := by
    rintro _ _ _ ⟨_, rfl, rfl⟩
    exact holds

theorem lift {computed : Except Failure α} {good : α → List Event → σ → Prop}
    (fails : ∀ cause, computed = .error cause → fatal cause)
    (holds : ∀ value, computed = .ok value → good value [] start) :
    Leads fatal (Act.lift computed) start good where
  fails := fails
  comes := by
    rintro value _ _ ⟨same, rfl, rfl⟩
    exact holds value same

theorem weaken {act : Act σ α} {good other : α → List Event → σ → Prop}
    (leads : Leads fatal act start good)
    (implies : ∀ value events last, good value events last → other value events last) :
    Leads fatal act start other where
  fails := leads.fails
  comes := fun value events last came => implies value events last (leads.comes _ _ _ came)

theorem bind {first : Act σ α} {next : α → Act σ β} {good : β → List Event → σ → Prop}
    (leads : Leads fatal first start fun value events middle =>
      Leads fatal (next value) middle fun other more last => good other (events ++ more) last) :
    Leads fatal (first >>= next) start good := by
  obtain ⟨fails, comes⟩ := leads
  constructor
  · intro cause
    rw [bind_apply]
    cases outcome : first start with
    | mk result events middle =>
      cases result with
      | error other =>
        intro same
        obtain rfl : other = cause := Except.error.inj same
        exact fails other (by rw [outcome])
      | ok value =>
        have onward := comes value (deeds events) middle (by rw [Comes, outcome]; exact ⟨rfl, rfl, rfl⟩)
        exact onward.fails cause
  · rintro other all last ⟨same, rfl, rfl⟩
    rw [bind_apply] at same ⊢
    cases outcome : first start with
    | mk result events middle =>
      rw [outcome] at same
      cases result with
      | error cause => cases same
      | ok value =>
        have onward := comes value (deeds events) middle (by rw [Comes, outcome]; exact ⟨rfl, rfl, rfl⟩)
        simpa using onward.comes other _ _ ⟨same, rfl, rfl⟩

/-- A failure that there is a message for does not end anything. -/
theorem attempt {act : Act σ α} {message? : Failure → Option String}
    {good : Except String α → List Event → σ → Prop}
    (granted : ∀ value events last, act.Comes start (.ok value) events last →
      good (.ok value) events last)
    (refused : ∀ cause events last, act.Comes start (.error cause) events last →
      ∃ message, message? cause = some message ∧ good (.error message) events last) :
    Leads fatal (act.attempt message?) start good := by
  have result : (∃ value, (act start).result = .ok value ∧
        ((act.attempt message?) start).result = .ok (.ok value)) ∨
      ∃ cause message, (act start).result = .error cause ∧ message? cause = some message ∧
        good (.error message) (deeds (act start).events) (act start).state ∧
        ((act.attempt message?) start).result = .ok (.error message) := by
    simp only [Act.attempt]
    cases came : (act start).result with
    | ok value => exact .inl ⟨value, rfl, rfl⟩
    | error cause =>
      obtain ⟨message, told, holds⟩ := refused cause _ _ ⟨came, rfl, rfl⟩
      exact .inr ⟨cause, message, rfl, told, holds, by simp [told]⟩
  constructor
  · intro cause failed
    rcases result with ⟨_, _, same⟩ | ⟨_, _, _, _, _, same⟩ <;> cases failed.symm.trans same
  · rintro other _ _ ⟨same, rfl, rfl⟩
    rcases result with ⟨value, came, same'⟩ | ⟨_, message, _, _, holds, same'⟩
    · obtain rfl := Except.ok.inj (same.symm.trans same')
      exact granted value _ _ ⟨came, rfl, rfl⟩
    · obtain rfl := Except.ok.inj (same.symm.trans same')
      exact holds

/-- What is done in the end is done also after a failure, and may fail in its place. -/
theorem ensuring {act : Act σ α} {last : Act σ Unit} {good : α → List Event → σ → Prop}
    (closes : ∀ state cause, (last state).result = .error cause → fatal cause)
    (leads : Leads fatal act start fun value events middle => ∀ more final,
      last.Comes middle (.ok ()) more final → good value (events ++ more) final) :
    Leads fatal (act.ensuring last) start good := by
  have result : (∃ cause, (last (act start).state).result = .error cause ∧
        (act.ensuring last start).result = .error cause) ∨
      ((last (act start).state).result = .ok () ∧
        (act.ensuring last start).result = (act start).result) := by
    simp only [Act.ensuring]
    cases ended : (last (act start).state).result with
    | error cause => exact .inl ⟨cause, rfl, rfl⟩
    | ok done => exact .inr ⟨rfl, rfl⟩
  constructor
  · intro cause failed
    rcases result with ⟨other, ended, same⟩ | ⟨_, same⟩
    · obtain rfl := Except.error.inj (failed.symm.trans same)
      exact closes _ _ ended
    · exact leads.fails cause (same ▸ failed)
  · rintro value _ _ ⟨came, rfl, rfl⟩
    rcases result with ⟨_, _, same⟩ | ⟨ended, same⟩
    · cases came.symm.trans same
    · have onward := leads.comes value _ _ ⟨same ▸ came, rfl, rfl⟩ _ _ ⟨ended, rfl, rfl⟩
      simpa only [Act.ensuring, deeds_append] using onward

end Leads

end Act

end InfraPins
