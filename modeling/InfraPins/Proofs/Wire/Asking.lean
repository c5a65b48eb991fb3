import InfraPins.Proofs.Wire.Success

namespace InfraPins

/-- The reply of an answer, unless it reports a failure. -/
def Answer.accepted? : Answer → Option Reply
  | .reply given => if given.status < Client.firstFailure then some given else none
  | .timeout _ => none
  | .broken _ => none

/-- The value of an answer: what the body of its reply writes. -/
def Answer.value? (answer : Answer) : Option Datum :=
  answer.accepted?.bind Reply.value?

def Datum.items? : Datum → Option (List Datum)
  | .list items => some items
  | _ => none

/-- A result that is a given value or, where there is none, a report. -/
inductive Result.Gives {α : Type} : Option α → Except Failure α → Prop where
  | value {value : α} : Gives (some value) (.ok value)
  | report {message : String} : Gives none (.error (.host message))

namespace Act

variable {α β : Type}

/-- An operation that asks for nothing and gives a value, or reports that there is none. -/
structure Yields (act : Act Wire α) (value? : Option α) : Prop where
  events : ∀ wire, (act wire).events = []
  state : ∀ wire, (act wire).state = wire
  result : ∀ wire, Result.Gives value? (act wire).result

/-- An operation that sends one request, and gives what the answer gives. -/
structure Asks (act : Act Wire α) (request : Request) (gives : Answer → Option α) : Prop where
  events : ∀ wire, (act wire).events = [.sent request]
  state : ∀ wire, (act wire).state = wire.tail
  result : ∀ wire, Result.Gives (gives (wire.head?.getD .missing)) (act wire).result

namespace Yields

variable {client : Client} {draft : Client.Draft} {what : String}

theorem pure {value : α} : Yields (Pure.pure value) (some value) where
  events _ := rfl
  state _ := rfl
  result _ := .value

theorem refuse {words : String} : Yields (client.refuse draft words : Act Wire α) none where
  events _ := rfl
  state _ := rfl
  result _ := .report

/-- A misuse of a value that is expected to be of some kind is reported. -/
theorem expect {used : Except Misuse α} :
    Yields (client.expecting what (Act.use used)) used.toOption where
  events _ := rfl
  state _ := rfl
  result _ := by
    cases used with
    | error cause => exact .report
    | ok value => exact .value

theorem decode {reply : Reply} : Yields (client.decode draft reply) reply.value? := by
  unfold Client.decode
  dsimp only
  split
  · rename_i value written
    have read : reply.value? = some value := written
    rw [read]
    exact pure
  · rename_i unwritten
    have read : reply.value? = none := unwritten
    rw [read]
    exact refuse

theorem bind {first : Act Wire α} {next : α → Act Wire β} {value? : Option α}
    {behind : α → Option β} (head : Yields first value?)
    (rest : ∀ value, Yields (next value) (behind value)) :
    Yields (first >>= next) (value?.bind behind) := by
  have split (wire : Wire) :
      (∃ value, value? = some value ∧ (first >>= next) wire = next value wire) ∨
      ∃ message, value? = none ∧ (first >>= next) wire = ⟨.error (.host message), [], wire⟩ := by
    have events := head.events wire
    have state := head.state wire
    have gives := head.result wire
    rw [bind_apply]
    generalize first wire = outcome at events state gives
    obtain ⟨result, listed, left⟩ := outcome
    dsimp only at events state gives
    subst events state
    cases gives with
    | value => exact .inl ⟨_, rfl, rfl⟩
    | report => exact .inr ⟨_, rfl, rfl⟩
  constructor
  · intro wire
    rcases split wire with ⟨value, _, same⟩ | ⟨message, _, same⟩
    · rw [same]
      exact (rest value).events wire
    · rw [same]
  · intro wire
    rcases split wire with ⟨value, _, same⟩ | ⟨message, _, same⟩
    · rw [same]
      exact (rest value).state wire
    · rw [same]
  · intro wire
    rcases split wire with ⟨value, rfl, same⟩ | ⟨message, rfl, same⟩
    · rw [same]
      exact (rest value).result wire
    · rw [same]
      exact .report

theorem decodeList {reply : Reply} :
    Yields (client.decodeList draft reply) (reply.value?.bind Datum.items?) := by
  refine decode.bind fun value => ?_
  cases value
  case list items => exact pure
  all_goals exact refuse

end Yields

namespace Asks

variable {asked : Request} {gives : Answer → Option α}

theorem send (client : Client) (draft : Client.Draft) :
    Asks (client.send draft) (client.requestOf draft) some where
  events wire := by rw [Client.send_apply]
  state wire := by rw [Client.send_apply]
  result wire := by
    rw [Client.send_apply]
    exact .value

/-- What is done with what an answer gave. -/
theorem bind {first : Act Wire α} {next : α → Act Wire β} {behind : α → Option β}
    (head : Asks first asked gives) (rest : ∀ value, Yields (next value) (behind value)) :
    Asks (first >>= next) asked fun answer => (gives answer).bind behind := by
  have step (wire : Wire) : ((first >>= next) wire).events = [.sent asked] ∧
      ((first >>= next) wire).state = wire.tail ∧
      Result.Gives ((gives (wire.head?.getD .missing)).bind behind) ((first >>= next) wire).result := by
    have events := head.events wire
    have state := head.state wire
    have came := head.result wire
    rw [bind_apply]
    generalize first wire = outcome at events state came
    obtain ⟨result, listed, left⟩ := outcome
    dsimp only at events state came
    subst events state
    generalize gives (wire.head?.getD .missing) = value? at came
    cases came with
    | report => exact ⟨rfl, rfl, .report⟩
    | @value value =>
      have onward := rest value
      refine ⟨?_, onward.state _, onward.result _⟩
      dsimp only
      rw [onward.events]
      rfl
  exact ⟨fun wire => (step wire).1, fun wire => (step wire).2.1, fun wire => (step wire).2.2⟩

theorem request (client : Client) (draft : Client.Draft) :
    Asks (client.request draft) (client.requestOf draft) Answer.accepted? := by
  show Asks _ _ fun answer => (some answer).bind Answer.accepted?
  refine (send client draft).bind fun answer => ?_
  cases answer with
  | timeout message => exact .refuse
  | broken message => exact .refuse
  | reply reply =>
    by_cases failing : Client.firstFailure ≤ reply.status
    · have refused : (Answer.reply reply).accepted? = none := if_neg (Nat.not_lt_of_le failing)
      simp only [failing, if_true, refused]
      exact .refuse
    · have passed : (Answer.reply reply).accepted? = some reply := if_pos (Nat.lt_of_not_le failing)
      simp only [failing, if_false, passed]
      exact .pure

theorem requestValue (client : Client) (draft : Client.Draft) :
    Asks (client.requestValue draft) (client.requestOf draft) Answer.value? :=
  (request client draft).bind fun _ => .decode

theorem requestList (client : Client) (draft : Client.Draft) :
    Asks (client.requestList draft) (client.requestOf draft) fun answer =>
      answer.accepted?.bind fun reply => reply.value?.bind Datum.items? :=
  (request client draft).bind fun _ => .decodeList

/-- What is said of an operation that sends one request. -/
theorem speaks {act : Act Wire α} (asks : Asks act asked gives) :
    Speaks act fun held _ result =>
      ∃ answer, held = [(asked, answer)] ∧ Result.Gives (gives answer) result where
  state wire := by
    rw [asks.events, asks.state]
    exact List.drop_one.symm
  post wire := by
    rw [asks.events]
    exact ⟨_, rfl, asks.result wire⟩

end Asks

end Act

end InfraPins
