import InfraPins.Proofs.Wire.Exchange
import InfraPins.Proofs.Wire.Rules

namespace InfraPins

namespace Client

variable (client : Client)

theorem send_apply (draft : Draft) (wire : Wire) :
    client.send draft wire =
      ⟨.ok (wire.head?.getD .missing), [.sent (client.requestOf draft)], wire.tail⟩ := by
  cases wire <;> rfl

end Client

namespace Act.Ensures

variable {client : Client} {draft : Client.Draft} {good : List Exchange → Request → Prop}
  {known : List Exchange} {α : Type}

theorem send (allowed : good known (client.requestOf draft)) :
    Ensures good known (client.send draft) fun all answer =>
      all = known ++ [(client.requestOf draft, answer)] where
  state wire := by simp [Client.send_apply, sent]
  good wire before request after same := by
    simp only [Client.send_apply, sent, List.filterMap_cons, List.filterMap_nil] at same
    cases before with
    | nil =>
      obtain ⟨rfl, _⟩ := List.cons_eq_cons.mp same
      simpa [exchanges] using allowed
    | cons first before => simp at same
  post wire value found := by
    simp only [Client.send_apply, Except.ok.injEq] at found ⊢
    simp [sent, exchanges, found]

/-- A request that is answered leaves its reply behind. -/
theorem request (allowed : good known (client.requestOf draft)) :
    Ensures good known (client.request draft) fun all reply =>
      all = known ++ [(client.requestOf draft, .reply reply)] ∧
        reply.status < Client.firstFailure := by
  refine (send allowed).bind fun more answer same => ?_
  cases answer with
  | timeout message => exact fail
  | broken message => exact fail
  | reply reply =>
    by_cases failing : Client.firstFailure ≤ reply.status
    · simp only [failing, if_true]
      exact fail
    · simp only [failing, if_false]
      exact pure ⟨same, Nat.lt_of_not_le failing⟩

theorem decode {reply : Reply} :
    Ensures good known (client.decode draft reply) fun all _ => all = known := by
  unfold Client.decode
  simp only
  split
  · exact pure rfl
  · exact fail

theorem requestValue (allowed : good known (client.requestOf draft)) :
    Ensures good known (client.requestValue draft) fun all _ =>
      ∃ reply, all = known ++ [(client.requestOf draft, .reply reply)] := by
  refine (request allowed).bind fun more reply same => decode.weaken fun next _ known => ?_
  exact ⟨reply, by rw [known, same.1]⟩

end Act.Ensures

namespace Act

/-- A request whose body lacks a field, whatever came before it. -/
abbrev Lacks (name : String) (_ : List Exchange) (request : Request) : Prop :=
  request.names name = false

/-- An operation none of whose requests has a field in its body. -/
def Quiet (name : String) (act : Act Wire α) : Prop :=
  ∀ known, Ensures (Lacks name) known act fun _ _ => True

namespace Quiet

variable {client : Client} {draft : Client.Draft} {name : String} {α β : Type}

theorem ensures {act : Act Wire α} {good : List Exchange → Request → Prop}
    {known : List Exchange} (quiet : Quiet name act)
    (implies : ∀ more request, request.names name = false → good more request) :
    Ensures good known act fun _ _ => True :=
  (quiet known).mono fun _ request => implies _ request

theorem pure {value : α} : Quiet name (Pure.pure value) :=
  fun _ => .pure trivial

theorem bind {first : Act Wire α} {next : α → Act Wire β} (head : Quiet name first)
    (rest : ∀ value, Quiet name (next value)) : Quiet name (first >>= next) :=
  fun known => (head known).bind fun _ value _ => rest value _

theorem lift {result : Except Failure α} : Quiet name (Act.lift result) :=
  fun _ => .lift fun _ _ => trivial

theorem log {level : Level} {text : String} : Quiet name (Act.log level text) :=
  fun _ => Ensures.log.weaken fun _ _ _ => trivial

theorem called {call : Call} : Quiet name (Act.record (.called call)) :=
  fun _ => Ensures.called.weaken fun _ _ _ => trivial

theorem attempt {act : Act Wire α} {message? : Failure → Option String} (quiet : Quiet name act) :
    Quiet name (act.attempt message?) :=
  fun known => (quiet known).attempt.weaken fun _ _ _ => trivial

theorem rules : WireRules fun {α} (act : Act Wire α) => Quiet name act where
  pure := pure
  bind := bind
  report := lift
  log := log
  expect := fun _ => .mapFailure (.use fun _ _ => trivial)
  lift := lift
  expecting := fun quiet known => (quiet known).mapFailure
  enough := fun _ => .of_silent (fun _ => rfl) (fun _ => rfl) fun _ _ _ => trivial

theorem send (client : Client) (draft : Client.Draft)
    (unnamed : (client.requestOf draft).names name = false) : Quiet name (client.send draft) :=
  fun _ => (Ensures.send unnamed).weaken fun _ _ _ => trivial

theorem request (client : Client) (draft : Client.Draft)
    (unnamed : (client.requestOf draft).names name = false) : Quiet name (client.request draft) :=
  rules.request (send client draft unnamed)

theorem exist (client : Client) (draft : Client.Draft)
    (unnamed : (client.requestOf draft).names name = false) : Quiet name (client.exist draft) :=
  rules.exist (send client draft unnamed)

end Quiet

end Act

end InfraPins
