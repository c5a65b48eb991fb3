import InfraPins.Host.Shapes
import InfraPins.Version.Precedence

namespace InfraPins

def Client.requestOf (client : Client) (draft : Client.Draft) : Request where
  method := draft.method
  url := Url.address client.base draft.path draft.parameters
  headers := client.sentHeaders draft.headers
  body := draft.body

namespace Client

variable {client : Client} {draft : Draft} {what : String} {α β : Type}

/-- A value that is of the expected kind is gone on with. -/
theorem expecting_ok_bind {value : α} {next : α → Act Wire β} :
    client.expecting what (Act.use (.ok value)) >>= next = next value := rfl

theorem expecting_log {level : Level} {text : String} :
    client.expecting what (Act.log level text) = Act.log level text := rfl

theorem expecting_bind {first : Act Wire α} {next : α → Act Wire β} :
    client.expecting what (first >>= next) =
      client.expecting what first >>= fun value => client.expecting what (next value) := by
  funext wire
  simp only [expecting, Act.mapFailure, Act.bind_apply]
  generalize first wire = outcome
  obtain ⟨result, events, left⟩ := outcome
  cases result <;> rfl

theorem expecting_send : client.expecting what (client.send draft) = client.send draft := by
  funext wire
  cases wire <;> rfl

theorem expecting_request : client.expecting what (client.request draft) = client.request draft := by
  unfold request
  rw [expecting_bind, expecting_send]
  congr
  funext answer
  cases answer with
  | timeout message => rfl
  | broken message => rfl
  | reply reply =>
    dsimp only
    split <;> rfl

theorem expecting_requestValue :
    client.expecting what (client.requestValue draft) = client.requestValue draft := by
  unfold requestValue
  rw [expecting_bind, expecting_request]
  congr
  funext reply
  unfold decode
  dsimp only
  split <;> rfl

end Client

/-- A reply that has one field has the others of a pull request, or a default for them. -/
theorem Shapes.pullRequestFields_of_field {reply value : Datum} {name : String}
    (input : PullRequestInput) (urlField statusField opened : String)
    (found : reply.field name = .ok value) :
    ∃ fields, pullRequestFields input urlField statusField opened reply = .ok fields := by
  cases reply
  case object fields => exact ⟨_, rfl⟩
  all_goals cases found

/-- Whether the body of a request has a field. -/
def Request.names (request : Request) (name : String) : Bool :=
  match request.body with
  | some (.object fields) => fields.any fun field => field.1 = .text name
  | _ => false

/-- A way to say how operations over a script go, whatever values they come to, that may turn on why
an operation fails: what a host reports is fine, and so is a use of values under an expectation. -/
structure ReplyRules (Goes : {α : Type} → Act Wire α → Prop) : Prop where
  pure : ∀ {α : Type} {value : α}, Goes (Pure.pure value)
  bind : ∀ {α β : Type} {first : Act Wire α} {next : α → Act Wire β}, Goes first →
    (∀ value, Goes (next value)) → Goes (first >>= next)
  report : ∀ {α : Type} {message : String}, Goes (Act.fail (.host message) : Act Wire α)
  log : ∀ {level : Level} {text : String}, Goes (Act.log level text)
  expect : ∀ {α : Type} {client : Client} {what : String} {result : Except Misuse α},
    Goes (client.expecting what (Act.use result))
  enough : Goes Client.enough

/-- A way to say how operations over a script go that does not turn on why an operation fails. -/
structure WireRules (Goes : {α : Type} → Act Wire α → Prop) : Prop extends ReplyRules Goes where
  lift : ∀ {α : Type} {result : Except Failure α}, Goes (Act.lift result)
  expecting : ∀ {α : Type} {act : Act Wire α} {client : Client} {what : String}, Goes act →
    Goes (client.expecting what act)

namespace ReplyRules

variable {Goes : {α : Type} → Act Wire α → Prop} (rules : ReplyRules Goes) {client : Client}
  {draft : Client.Draft} {α β : Type}

include rules

theorem request (sent : Goes (client.send draft)) : Goes (client.request draft) := by
  refine rules.bind sent fun answer => ?_
  cases answer with
  | timeout message => exact rules.report
  | broken message => exact rules.report
  | reply reply =>
    dsimp only
    split
    · exact rules.report
    · exact rules.pure

theorem decode {reply : Reply} : Goes (client.decode draft reply) := by
  unfold Client.decode
  dsimp only
  split
  · exact rules.pure
  · exact rules.report

theorem decodeList {reply : Reply} : Goes (client.decodeList draft reply) := by
  refine rules.bind rules.decode fun value => ?_
  cases value
  case list items => exact rules.pure
  all_goals exact rules.report

theorem requestValue (asked : Goes (client.request draft)) : Goes (client.requestValue draft) :=
  rules.bind asked fun _ => rules.decode

theorem requestList (asked : Goes (client.request draft)) : Goes (client.requestList draft) :=
  rules.bind asked fun _ => rules.decodeList

theorem exist (sent : Goes (client.send draft)) : Goes (client.exist draft) := by
  refine rules.bind sent fun answer => ?_
  cases answer with
  | timeout message => exact rules.report
  | broken message => exact rules.report
  | reply reply =>
    dsimp only
    split
    · exact rules.pure
    · split
      · exact rules.report
      · exact rules.pure

theorem expect_map {what : String} {result : Except Misuse α} {change : α → β} :
    Goes (client.expecting what do return change (← Act.use result)) := by
  rw [Client.expecting_bind]
  exact rules.bind rules.expect fun _ => rules.pure

theorem mapM {items : List β} {act : β → Act Wire α} (each : ∀ item, Goes (act item)) :
    Goes (items.mapM act) := by
  induction items with
  | nil => exact rules.pure
  | cons item items ih =>
    rw [List.mapM_cons]
    exact rules.bind (each item) fun _ => rules.bind ih fun _ => rules.pure

end ReplyRules

namespace WireRules

variable {Goes : {α : Type} → Act Wire α → Prop} (rules : WireRules Goes) {α : Type}

include rules

theorem use {result : Except Misuse α} : Goes (Act.use result) :=
  rules.lift

theorem branchOf {branch : Datum} : Goes (Shapes.branchOf branch) :=
  rules.bind rules.use fun _ => rules.pure

theorem sorts {client : Client} {what : String} (names : Except Misuse (List Datum)) :
    Goes (client.expecting what do
      let names ← Act.use names
      Act.lift (Version.sortTags names)) :=
  rules.expecting (rules.bind rules.use fun _ => rules.lift)

end WireRules

end InfraPins
