import InfraPins.Proofs.Wire.Quiet

namespace InfraPins

/-- An answer that a client goes on with. -/
def Answer.Passes : Answer → Prop
  | .reply given => given.status < Client.firstFailure
  | .timeout _ => False
  | .broken _ => False

def Reply.value? (reply : Reply) : Option Datum :=
  Json.read? <| match reply.body.toList with
    | '\uFEFF' :: rest => String.ofList rest
    | _ => reply.body

/-- A reply that something is not found. -/
def Answer.IsNotFound (answer : Answer) : Prop :=
  ∃ reply, answer = .reply reply ∧ reply.status = 404

def Client.Blames (client : Client) (request : Request) (message : String) : Prop :=
  ∃ draft words, request = client.requestOf draft ∧
    message = client.name ++ ": " ++ draft.text ++ " " ++ words

/-- Requests all of which were answered acceptably. -/
abbrev Smooth (accepted : Answer → Prop) (held : List Exchange) : Prop :=
  ∀ exchange ∈ held, accepted exchange.2

/-- Answers that are acceptable alike are accepted alike. -/
theorem Smooth.congr {accepted wanted : Answer → Prop} {held : List Exchange}
    (smooth : Smooth accepted held) (same : ∀ exchange ∈ held, accepted exchange.2 ↔ wanted exchange.2) :
    Smooth wanted held :=
  fun exchange member => (same exchange member).mp (smooth exchange member)

/-- Requests and what came of them: all were answered acceptably; or the last one was not, and is
what the failure is about. -/
inductive Heeded (client : Client) (accepted : Answer → Prop) {α : Type} :
    List Exchange → Except Failure α → Prop where
  | passed {held : List Exchange} {result : Except Failure α} (smooth : Smooth accepted held) :
      Heeded client accepted held result
  | stopped {front : List Exchange} {last : Exchange} {message : String}
      (smooth : Smooth accepted front) (failed : ¬ accepted last.2)
      (blamed : client.Blames last.1 message) :
      Heeded client accepted (front ++ [last]) (.error (.host message))

/-- What a request comes to that may fail with a warning. -/
def Warns (accepted : Answer → Prop) (held : List Exchange) (events : List Event)
    (result : Except Failure Unit) : Prop :=
  Smooth accepted held ∨ result = .ok () ∧ ∃ front last text, held = front ++ [last] ∧
    Smooth accepted front ∧ ¬ accepted last.2 ∧ .log .warning text ∈ events

namespace Heeded

variable {client : Client} {accepted : Answer → Prop} {held more : List Exchange} {α β : Type}

theorem smooth_of_ok {value : α} (heeded : Heeded client accepted held (.ok value)) :
    Smooth accepted held := by
  cases heeded with
  | passed smooth => exact smooth

/-- A failure stays one for whatever would have been done next. -/
theorem failing {cause : Failure} (heeded : Heeded client accepted held (.error cause : Except _ α)) :
    Heeded client accepted held (.error cause : Except _ β) := by
  cases heeded with
  | passed smooth => exact .passed smooth
  | stopped smooth failed blamed => exact .stopped smooth failed blamed

theorem congr {wanted : Answer → Prop} {result : Except Failure α}
    (heeded : Heeded client accepted held result)
    (same : ∀ exchange ∈ held, accepted exchange.2 ↔ wanted exchange.2) :
    Heeded client wanted held result := by
  cases heeded with
  | passed smooth => exact .passed (smooth.congr same)
  | stopped smooth failed blamed =>
    obtain ⟨before, behind⟩ := List.forall_mem_append.mp same
    exact .stopped (smooth.congr before) (mt (List.forall_mem_singleton.mp behind).mpr failed) blamed

/-- What is held after a smooth start. -/
theorem behind {result : Except Failure α} (smooth : Smooth accepted held)
    (heeded : Heeded client accepted more result) : Heeded client accepted (held ++ more) result := by
  cases heeded with
  | passed rest => exact .passed (List.forall_mem_append.mpr ⟨smooth, rest⟩)
  | stopped rest failed blamed =>
    rw [← List.append_assoc]
    exact .stopped (List.forall_mem_append.mpr ⟨smooth, rest⟩) failed blamed

end Heeded

namespace Act

variable {α β : Type}

/-- An operation over a script that takes the next answer for each of its requests. Its exchanges,
its journal and what it came to have a property together. -/
structure Speaks (act : Act Wire α) (post : List Exchange → List Event → Except Failure α → Prop) :
    Prop where
  state : ∀ wire, (act wire).state = wire.drop (sent (act wire).events).length
  post : ∀ wire, post (exchanges wire (sent (act wire).events)) (act wire).events (act wire).result

namespace Speaks

variable {post : List Exchange → List Event → Except Failure α → Prop}

theorem of_silent {act : Act Wire α} (state : ∀ wire, (act wire).state = wire)
    (silent : ∀ wire, sent (act wire).events = [])
    (holds : ∀ wire, post [] (act wire).events (act wire).result) : Speaks act post where
  state wire := by rw [state, silent]; rfl
  post wire := by rw [silent]; exact holds wire

theorem weaken {act : Act Wire α} {other : List Exchange → List Event → Except Failure α → Prop}
    (speaks : Speaks act post)
    (implies : ∀ held events result, post held events result → other held events result) :
    Speaks act other where
  state := speaks.state
  post wire := implies _ _ _ (speaks.post wire)

/-- One operation after another, unless the first fails. -/
theorem bind {first : Act Wire α} {next : α → Act Wire β}
    {whole : List Exchange → List Event → Except Failure β → Prop} (head : Speaks first post)
    (rest : ∀ held events value, post held events (.ok value) → Speaks (next value)
      fun more later result => whole (held ++ more) (events ++ later) result)
    (failed : ∀ held events cause, post held events (.error cause) → whole held events (.error cause)) :
    Speaks (first >>= next) whole := by
  constructor
  · intro wire
    have start := head.state wire
    have begun := head.post wire
    rw [bind_apply]
    generalize first wire = outcome at start begun
    obtain ⟨result, events, left⟩ := outcome
    cases result with
    | error cause => exact start
    | ok value =>
      have onward := (rest _ _ value begun).state left
      dsimp only at start onward ⊢
      rw [sent_append, List.length_append, onward, start, List.drop_drop]
  · intro wire
    have start := head.state wire
    have begun := head.post wire
    rw [bind_apply]
    generalize first wire = outcome at start begun
    obtain ⟨result, events, left⟩ := outcome
    cases result with
    | error cause => exact failed _ _ cause begun
    | ok value =>
      have onward := (rest _ _ value begun).post left
      dsimp only at start onward ⊢
      rw [sent_append, exchanges_append, ← start]
      exact onward

theorem attempt {act : Act Wire α} {message? : Failure → Option String} (speaks : Speaks act post) :
    Speaks (act.attempt message?) fun held events result =>
      (∃ value, result = .ok (.ok value) ∧ post held events (.ok value)) ∨
      (∃ cause message, result = .ok (.error message) ∧ message? cause = some message ∧
        post held events (.error cause)) ∨
      ∃ cause, result = .error cause ∧ message? cause = none ∧ post held events (.error cause) where
  state := speaks.state
  post wire := by
    have came := speaks.post wire
    simp only [Act.attempt]
    cases outcome : (act wire).result with
    | ok value =>
      rw [outcome] at came
      exact .inl ⟨value, rfl, came⟩
    | error cause =>
      rw [outcome] at came
      cases told : message? cause with
      | some message => exact .inr (.inl ⟨cause, message, by simp [told], told, came⟩)
      | none => exact .inr (.inr ⟨cause, by simp [told], told, came⟩)

theorem mapFailure {act : Act Wire α} {change : Failure → Failure}
    {other : List Exchange → List Event → Except Failure α → Prop} (speaks : Speaks act post)
    (implies : ∀ held events result, post held events result →
      other held events (result.mapError change)) : Speaks (act.mapFailure change) other where
  state := speaks.state
  post wire := implies _ _ _ (speaks.post wire)

end Speaks

/-- An operation that goes on only after replies that report no failure. -/
abbrev Heeds (client : Client) (act : Act Wire α) : Prop :=
  Speaks act fun held _ result => Heeded client Answer.Passes held result

namespace Heeds

variable {client : Client}

theorem of_silent {act : Act Wire α} (state : ∀ wire, (act wire).state = wire)
    (silent : ∀ wire, sent (act wire).events = []) : Heeds client act :=
  Speaks.of_silent state silent fun _ => .passed nofun

theorem bind {first : Act Wire α} {next : α → Act Wire β} (head : Heeds client first)
    (rest : ∀ value, Heeds client (next value)) : Heeds client (first >>= next) := by
  refine Speaks.bind head ?_ fun _ _ _ => Heeded.failing
  intro held events value came
  exact (rest value).weaken fun more _ result => .behind came.smooth_of_ok

/-- Another form for misuse leaves a failed request what it is. -/
theorem expecting {act : Act Wire α} {expected : Client} {what : String} (heeds : Heeds client act) :
    Heeds client (expected.expecting what act) := by
  refine Speaks.mapFailure heeds fun held _ result came => ?_
  cases came with
  | passed smooth => exact .passed smooth
  | stopped smooth failed blamed => exact .stopped smooth failed blamed

/-- What is said of operations that go on only after replies that report no failure. -/
theorem rules : WireRules fun {α} (act : Act Wire α) => Heeds client act where
  pure := .of_silent (fun _ => rfl) fun _ => rfl
  bind := bind
  report := .of_silent (fun _ => rfl) fun _ => rfl
  log := .of_silent (fun _ => rfl) fun _ => rfl
  expect := .of_silent (fun _ => rfl) fun _ => rfl
  lift := .of_silent (fun _ => rfl) fun _ => rfl
  expecting := expecting
  enough := .of_silent (fun _ => rfl) fun _ => rfl

theorem send (client : Client) (draft : Client.Draft) :
    Speaks (client.send draft) fun held _ result =>
      ∃ answer, held = [(client.requestOf draft, answer)] ∧ result = .ok answer where
  state wire := by
    rw [Client.send_apply]
    exact List.drop_one.symm
  post wire := by
    rw [Client.send_apply]
    exact ⟨_, rfl, rfl⟩

/-- A request whose answer is not acceptable is the last. -/
theorem refuse {draft : Client.Draft} {answer : Answer} {words : String} (failed : ¬ answer.Passes) :
    Speaks (client.refuse draft words : Act Wire α) fun more _ result =>
      Heeded client Answer.Passes ([(client.requestOf draft, answer)] ++ more) result := by
  refine .of_silent (fun _ => rfl) (fun _ => rfl) fun _ => ?_
  show Heeded client Answer.Passes ([] ++ [(client.requestOf draft, answer)]) _
  exact .stopped (List.forall_mem_nil _) failed ⟨draft, words, rfl, rfl⟩

theorem request (client : Client) (draft : Client.Draft) : Heeds client (client.request draft) := by
  refine (send client draft).bind ?_ fun _ _ _ ⟨_, _, same⟩ => nomatch same
  rintro _ _ answer ⟨_, rfl, same⟩
  obtain rfl := Except.ok.inj same
  cases answer with
  | timeout message => exact refuse id
  | broken message => exact refuse id
  | reply reply =>
    by_cases failing : Client.firstFailure ≤ reply.status
    · simp only [failing, if_true]
      exact refuse (Nat.not_lt_of_le failing)
    · simp only [failing, if_false]
      refine .of_silent (fun _ => rfl) (fun _ => rfl) fun _ => .passed ?_
      exact List.forall_mem_singleton.mpr (Nat.lt_of_not_le failing)

/-- A reply that something is not found is an answer to whether it exists. -/
theorem exist (client : Client) (draft : Client.Draft) :
    Speaks (client.exist draft) fun held _ result =>
      ∃ answer, held = [(client.requestOf draft, answer)] ∧
        (answer.IsNotFound ∧ result = .ok false ∨
          ¬ answer.IsNotFound ∧ Heeded client Answer.Passes held result) := by
  refine (send client draft).bind ?_ fun _ _ _ ⟨_, _, same⟩ => nomatch same
  rintro _ _ answer ⟨_, rfl, same⟩
  obtain rfl := Except.ok.inj same
  have refused {words : String} (failed : ¬ answer.Passes) (found : ¬ answer.IsNotFound) :
      Speaks (client.refuse draft words : Act Wire Bool) fun more _ result =>
        ∃ other, [(client.requestOf draft, answer)] ++ more = [(client.requestOf draft, other)] ∧
          (other.IsNotFound ∧ result = .ok false ∨ ¬ other.IsNotFound ∧
            Heeded client Answer.Passes ([(client.requestOf draft, answer)] ++ more) result) := by
    refine .of_silent (fun _ => rfl) (fun _ => rfl) fun _ => ⟨answer, rfl, .inr ⟨found, ?_⟩⟩
    exact (refuse failed).post []
  cases answer with
  | timeout message => exact refused id fun ⟨_, same, _⟩ => nomatch same
  | broken message => exact refused id fun ⟨_, same, _⟩ => nomatch same
  | reply reply =>
    by_cases absent : reply.status = 404
    · simp only [absent, if_true]
      refine .of_silent (fun _ => rfl) (fun _ => rfl) fun _ => ⟨_, rfl, .inl ?_⟩
      exact ⟨⟨reply, rfl, absent⟩, rfl⟩
    · have found : ¬ (Answer.reply reply).IsNotFound := by
        rintro ⟨_, same, notFound⟩
        cases same
        exact absent notFound
      by_cases failing : Client.firstFailure ≤ reply.status
      · simp only [absent, failing, if_true, if_false]
        exact refused (Nat.not_lt_of_le failing) found
      · simp only [absent, failing, if_false]
        refine .of_silent (fun _ => rfl) (fun _ => rfl) fun _ => ⟨_, rfl, .inr ⟨found, .passed ?_⟩⟩
        exact List.forall_mem_singleton.mpr (Nat.lt_of_not_le failing)

/-- A request that may fail with a warning is the last there, if it does. -/
theorem optional (client : Client) (draft : Client.Draft) (opening : String) :
    Speaks (do
      match (← (client.request draft).attempt Failure.hostMessage?) with
      | .ok _ => return ()
      | .error message => Act.log .warning (opening ++ message))
      (Warns Answer.Passes) := by
  refine (request client draft).attempt.bind ?_ ?_
  · rintro held events outcome (⟨reply, same, heeded⟩ | ⟨cause, message, same, _, heeded⟩ | ⟨_, same, _⟩)
    · obtain rfl := Except.ok.inj same
      refine .of_silent (fun _ => rfl) (fun _ => rfl) fun _ => .inl ?_
      rw [List.append_nil]
      exact heeded.smooth_of_ok
    · obtain rfl := Except.ok.inj same
      refine .of_silent (fun _ => rfl) (fun _ => rfl) fun _ => ?_
      rw [List.append_nil]
      cases heeded with
      | passed smooth => exact .inl smooth
      | @stopped front last _ smooth failed _ =>
        exact .inr ⟨rfl, front, last, opening ++ message, rfl, smooth, failed,
          List.mem_append_right events List.mem_cons_self⟩
    · cases same
  · rintro held events cause (⟨_, same, _⟩ | ⟨_, _, same, _⟩ | ⟨other, same, untold, heeded⟩)
    · cases same
    · cases same
    · cases heeded with
      | passed smooth => exact .inl smooth
      | stopped => cases untold

end Heeds

end Act

end InfraPins
