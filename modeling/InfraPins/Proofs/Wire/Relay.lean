import InfraPins.Proofs.Wire.Asking

namespace InfraPins

open Act

/-- A request of a relay: what its answer gives, and the value that the rest of the relay is made of. -/
structure Leg where
  request : Request
  gives : Answer → Option Datum
  value : Datum

/-- A request of a relay that was answered with the value of its leg. -/
def Leg.Given (leg : Leg) (exchange : Exchange) : Prop :=
  exchange.1 = leg.request ∧ leg.gives exchange.2 = some leg.value

/-- What comes of a relay of requests. -/
inductive Relay : List Leg → List Exchange → Except Failure Unit → Prop where
  | done : Relay [] [] (.ok ())
  /-- An answer that gives no value is reported, and nothing more is asked for. -/
  | stopped {leg : Leg} {legs : List Leg} {answer : Answer} {message : String}
      (refused : leg.gives answer = none) :
      Relay (leg :: legs) [(leg.request, answer)] (.error (.host message))
  /-- An answer that gives the value of its leg is followed by the rest of the relay. -/
  | onward {leg : Leg} {legs : List Leg} {answer : Answer} {held : List Exchange}
      {result : Except Failure Unit} (given : leg.gives answer = some leg.value)
      (rest : Relay legs held result) :
      Relay (leg :: legs) ((leg.request, answer) :: held) result

/-- What an answer says at the end of a path of fields. -/
def Answer.says? (names : List String) (answer : Answer) : Option Datum :=
  answer.value?.bind fun value => (names.foldlM Datum.field value).toOption

namespace Relay

variable {legs : List Leg} {held : List Exchange} {result : Except Failure Unit}

theorem asked_prefix (relay : Relay legs held result) :
    held.map Prod.fst <+: legs.map Leg.request := by
  induction relay with
  | done => exact List.prefix_rfl
  | stopped refused => exact (List.prefix_cons_inj _).mpr List.nil_prefix
  | onward given rest ih => exact (List.prefix_cons_inj _).mpr ih

/-- Where a request of a relay was sent, every answer before it gave the value of its leg. -/
theorem given_before (relay : Relay legs held result) {place : Nat} (sent : place < held.length) :
    List.Forall₂ Leg.Given (legs.take place) (held.take place) := by
  induction relay generalizing place with
  | done => exact absurd sent (Nat.not_lt_zero _)
  | stopped refused =>
    obtain rfl := Nat.lt_one_iff.mp sent
    exact .nil
  | onward given rest ih =>
    cases place with
    | zero => exact .nil
    | succ place => exact .cons ⟨rfl, given⟩ (ih (Nat.lt_of_succ_lt_succ sent))

end Relay

namespace Act.Asks

variable {asked : Request}

/-- What is done with a value that an answer gave, and what it means that the answer gave none. -/
theorem andThen {α β : Type} {first : Act Wire α} {next : α → Act Wire β} {gives : Answer → Option α}
    {post : List Exchange → Except Failure β → Prop} (asks : Asks first asked gives)
    (whole : α → List Exchange → Except Failure β → Prop)
    (rest : ∀ value, Speaks (next value) fun held _ result => whole value held result)
    (stopped : ∀ answer message, gives answer = none → post [(asked, answer)] (.error (.host message)))
    (onward : ∀ answer value held result, gives answer = some value → whole value held result →
      post ((asked, answer) :: held) result) :
    Speaks (first >>= next) fun held _ result => post held result := by
  refine asks.speaks.bind ?_ ?_
  · rintro _ events value ⟨answer, rfl, came⟩
    have given : gives answer = some value := by
      generalize gives answer = value? at came
      cases came
      rfl
    exact (rest value).weaken fun held _ result came => onward answer value held result given came
  · rintro _ events cause ⟨answer, rfl, came⟩
    generalize given : gives answer = value? at came
    cases came with
    | report => exact stopped answer _ given

theorem field (client : Client) (draft : Client.Draft) (what : String) (names : List String) :
    Asks (do
        let value ← client.requestValue draft
        client.expecting what (Act.use (names.foldlM Datum.field value)))
      (client.requestOf draft) (Answer.says? names) :=
  (requestValue client draft).bind fun _ => .expect

end Act.Asks

/-- The last request of a relay, of whose answer nothing is needed but that it reports no failure. -/
theorem Relay.answered (client : Client) (draft : Client.Draft) :
    Speaks (do
        let _ ← client.request draft
        return ()) fun held _ result =>
      Relay [⟨client.requestOf draft, fun answer => answer.accepted?.map fun _ => .null, .null⟩] held
        result := by
  have asks : Asks (do
      let _ ← client.request draft
      return ()) (client.requestOf draft) fun answer => answer.accepted?.bind fun _ => some () :=
    (Asks.request client draft).bind fun _ => .pure
  refine asks.speaks.weaken ?_
  rintro _ _ result ⟨answer, rfl, came⟩
  cases accepted : answer.accepted? with
  | none =>
    rw [accepted] at came
    cases came with
    | report => exact .stopped (congrArg (Option.map fun _ => Datum.null) accepted)
  | some reply =>
    rw [accepted] at came
    cases came with
    | value => exact .onward (congrArg (Option.map fun _ => Datum.null) accepted) .done

/-- What is expected of a field of a value that is asked for, before all that is done with it. -/
theorem Client.expecting_field {client : Client} {draft : Client.Draft} {what : String}
    {next : Datum → Except Misuse Datum} {rest : Datum → Act Wire Unit} (names : List String)
    (same : ∀ value, next value = names.foldlM Datum.field value) :
    client.expecting what (do
        let reply ← client.requestValue draft
        let value ← Act.use (next reply)
        rest value) =
      (do
        let reply ← client.requestValue draft
        client.expecting what (Act.use (names.foldlM Datum.field reply))) >>= fun value =>
          client.expecting what (rest value) := by
  rw [expecting_bind, expecting_requestValue, bind_assoc]
  refine congrArg (_ >>= ·) (funext fun reply => ?_)
  rw [expecting_bind, same]

end InfraPins
