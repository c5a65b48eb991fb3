import InfraPins.Host.Basic
import InfraPins.Proofs.Journal

namespace InfraPins

/-- The calls of a journal, in order. -/
def calls (events : List Event) : List Call :=
  events.filterMap fun event => match event with
    | .called call => some call
    | _ => none

@[simp]
theorem calls_nil : calls [] = [] := rfl

@[simp]
theorem calls_append (events more : List Event) :
    calls (events ++ more) = calls events ++ calls more :=
  List.filterMap_append

abbrev Call.Answer : Call → Type
  | .discover _ => List Repository
  | .listFiles _ _ => List TreeEntry
  | .fetchFile _ _ => String
  | .listTags _ => List Datum
  | .hasFile _ _ => Bool
  | .createBranch _ _ => Unit
  | .openPullRequest _ _ => PullRequest
  | .pullRequestExists _ _ => Bool
  | .close => Unit

/-- A call with its answer. -/
structure Response where
  call : Call
  answer : Except Failure call.Answer

def Response.Refused (response : Response) : Prop :=
  ∃ cause, response.answer = .error cause

instance (response : Response) : Decidable response.Refused :=
  match answered : response.answer with
  | .ok _ => isFalse fun ⟨_, same⟩ => nomatch answered.symm.trans same
  | .error cause => isTrue ⟨cause, answered⟩

namespace Host

variable {σ : Type} (host : Host σ)

/-- What a host does when it is asked for something. -/
def perform : (call : Call) → Act σ call.Answer
  | .discover organization => host.discover organization
  | .listFiles repository suffix => host.listFiles repository suffix
  | .fetchFile repository path => host.fetchFile repository path
  | .listTags repository => host.listTags repository
  | .hasFile repository path => host.hasFile repository path
  | .createBranch repository branch => host.createBranch repository branch
  | .openPullRequest repository input => host.openPullRequest repository input
  | .pullRequestExists repository branch => host.pullRequestExists repository branch
  | .close => host.close

def ask (call : Call) : Act σ call.Answer := do
  Act.record (.called call)
  host.perform call

/-- The answers of a host that is asked some calls in turn. -/
def responses (state : σ) : List Call → List Response
  | [] => []
  | call :: rest =>
    let outcome := host.perform call state
    ⟨call, outcome.result⟩ :: responses outcome.state rest

def after (state : σ) : List Call → σ
  | [] => state
  | call :: rest => after (host.perform call state).state rest

theorem after_append (state : σ) (asked more : List Call) :
    host.after state (asked ++ more) = host.after (host.after state asked) more := by
  induction asked generalizing state with
  | nil => rfl
  | cons call asked ih => exact ih _

theorem responses_append (state : σ) (asked more : List Call) :
    host.responses state (asked ++ more) =
      host.responses state asked ++ host.responses (host.after state asked) more := by
  induction asked generalizing state with
  | nil => rfl
  | cons call asked ih => simp only [List.cons_append, responses, after, ih]

theorem map_call_responses (state : σ) (asked : List Call) :
    (host.responses state asked).map Response.call = asked := by
  induction asked generalizing state with
  | nil => rfl
  | cons call asked ih => simp only [responses, List.map_cons, ih]

theorem answer_of_responses_eq {state : σ} {asked : List Call} {before after : List Response}
    {response : Response} (split : host.responses state asked = before ++ response :: after) :
    response.answer =
      (host.perform response.call (host.after state (before.map Response.call))).result := by
  induction before generalizing state asked with
  | nil =>
    cases asked with
    | nil => cases split
    | cons call asked =>
      obtain ⟨rfl, _⟩ := List.cons.inj split
      rfl
  | cons first before ih =>
    cases asked with
    | nil => cases split
    | cons call asked =>
      obtain ⟨rfl, rest⟩ := List.cons.inj split
      exact ih rest

/-- A host that journals no calls of its own. -/
def Discreet : Prop :=
  ∀ call state, calls (host.perform call state).events = []

/-- Asking a discreet host for something puts that call into the journal, and no other. -/
theorem calls_ask {host : Host σ} (discreet : host.Discreet) (call : Call) (state : σ) :
    calls (host.ask call state).events = [call] := by
  have quiet := discreet call state
  unfold ask
  rw [Act.bind_apply]
  simpa [Act.record, calls] using quiet

/-- A host that fails only by report. -/
def Reporting : Prop :=
  ∀ call state cause, (host.perform call state).result = .error cause →
    ∃ message, cause.hostMessage? = some message

end Host

/-- A registry that makes hosts which journal no calls of their own, and journals none when it does. -/
def Registry.Discreet {σ : Type} (registry : Registry σ) : Prop :=
  ∀ entry ∈ registry, ∀ token base state, calls (entry.2 token base state).events = [] ∧
    ∀ host, (entry.2 token base state).result = .ok host → host.Discreet

namespace Act

variable {σ α β : Type} {host : Host σ}

/-- An operation that changes its state only by asking a host. What it was answered and what it came
to have a property together. -/
structure Converses (host : Host σ) (act : Act σ α)
    (post : List Response → Except Failure α → Prop) : Prop where
  state : ∀ state, (act state).state = host.after state (calls (act state).events)
  post : ∀ state, post (host.responses state (calls (act state).events)) (act state).result

namespace Converses

theorem of_silent {act : Act σ α} {post : List Response → Except Failure α → Prop}
    (state : ∀ state, (act state).state = state) (silent : ∀ state, calls (act state).events = [])
    (result : ∀ state, post [] (act state).result) : Converses host act post where
  state := fun start => by simp [state, silent, Host.after]
  post := fun start => by simpa [silent, Host.responses] using result start

theorem pure {value : α} :
    Converses host (Pure.pure value) fun responses result => responses = [] ∧ result = .ok value :=
  of_silent (fun _ => rfl) (fun _ => rfl) fun _ => ⟨rfl, rfl⟩

theorem lift {computed : Except Failure α} :
    Converses host (Act.lift computed) fun responses result =>
      responses = [] ∧ result = computed :=
  of_silent (fun _ => rfl) (fun _ => rfl) fun _ => ⟨rfl, rfl⟩

theorem fail {cause : Failure} :
    Converses host (Act.fail cause : Act σ α) fun responses result =>
      responses = [] ∧ result = .error cause :=
  of_silent (fun _ => rfl) (fun _ => rfl) fun _ => ⟨rfl, rfl⟩

theorem log {level : Level} {text : String} :
    Converses host (Act.log level text) fun responses result => responses = [] ∧ result = .ok () :=
  of_silent (fun _ => rfl) (fun _ => rfl) fun _ => ⟨rfl, rfl⟩

theorem weaken {act : Act σ α} {post other : List Response → Except Failure α → Prop}
    (converses : Converses host act post)
    (implies : ∀ responses result, post responses result → other responses result) :
    Converses host act other where
  state := converses.state
  post := fun state => implies _ _ (converses.post state)

/-- A host that only reports its failures grants a call or refuses it with a message. -/
theorem ask (discreet : host.Discreet) (reporting : host.Reporting) (call : Call) :
    Converses host (host.ask call) fun responses result =>
      (∃ value state, (host.perform call state).result = .ok value ∧
        responses = [⟨call, .ok value⟩] ∧ result = .ok value) ∨
      ∃ cause message, cause.hostMessage? = some message ∧ responses = [⟨call, .error cause⟩] ∧
        result = .error cause := by
  constructor
  · intro state
    rw [Host.calls_ask discreet]
    rfl
  · intro state
    rw [Host.calls_ask discreet]
    have same : (host.ask call state).result = (host.perform call state).result := rfl
    simp only [same, Host.responses]
    cases came : (host.perform call state).result with
    | ok value => exact .inl ⟨value, state, came, rfl, rfl⟩
    | error cause =>
      obtain ⟨message, told⟩ := reporting call state cause came
      exact .inr ⟨cause, message, told, rfl, rfl⟩

/-- One operation after another, unless the first fails. -/
theorem bind {first : Act σ α} {next : α → Act σ β}
    {middle : List Response → Except Failure α → Prop}
    {post : List Response → Except Failure β → Prop} (head : Converses host first middle)
    (rest : ∀ responses value, middle responses (.ok value) →
      Converses host (next value) fun more result => post (responses ++ more) result)
    (failed : ∀ responses cause, middle responses (.error cause) → post responses (.error cause)) :
    Converses host (first >>= next) post := by
  constructor
  · intro state
    have start := head.state state
    have begun := head.post state
    rw [bind_apply]
    cases outcome : first state with
    | mk result events left =>
      rw [outcome] at start begun
      cases result with
      | error cause => exact start
      | ok value =>
        have onward := (rest _ value begun).state left
        simp only at start
        simp only [calls_append, Host.after_append, ← start]
        exact onward
  · intro state
    have start := head.state state
    have begun := head.post state
    rw [bind_apply]
    cases outcome : first state with
    | mk result events left =>
      rw [outcome] at start begun
      cases result with
      | error cause => exact failed _ cause begun
      | ok value =>
        have onward := (rest _ value begun).post left
        simp only at start
        simp only [calls_append, Host.responses_append, ← start]
        exact onward

/-- A value that is given at once. -/
theorem done {value : α} {post : List Response → Except Failure α → Prop}
    (holds : post [] (.ok value)) : Converses host (Pure.pure value) post :=
  of_silent (fun _ => rfl) (fun _ => rfl) fun _ => holds

/-- What comes after an operation that asks for nothing. -/
theorem after {act : Act σ Unit} {next : Act σ β} {post : List Response → Except Failure β → Prop}
    (silent : Converses host act fun responses result => responses = [] ∧ result = .ok ())
    (rest : Converses host next post) : Converses host (do act; next) post := by
  refine silent.bind (fun _ _ ⟨asked, _⟩ => ?_) fun _ _ ⟨_, same⟩ => nomatch same
  subst asked
  exact rest

/-- A failure that is turned into a message no longer is a failure. -/
theorem attempt {act : Act σ α} {post : List Response → Except Failure α → Prop}
    (converses : Converses host act post) (message? : Failure → Option String) :
    Converses host (act.attempt message?) fun responses result =>
      (∃ value, result = .ok (.ok value) ∧ post responses (.ok value)) ∨
      (∃ cause message, message? cause = some message ∧ result = .ok (.error message) ∧
        post responses (.error cause)) ∨
      ∃ cause, message? cause = none ∧ result = .error cause ∧ post responses (.error cause) where
  state := converses.state
  post := by
    intro state
    have came := converses.post state
    simp only [Act.attempt]
    cases outcome : (act state).result with
    | ok value =>
      rw [outcome] at came
      exact .inl ⟨value, rfl, came⟩
    | error cause =>
      rw [outcome] at came
      cases told : message? cause with
      | some message => exact .inr (.inl ⟨cause, message, told, by simp [told], came⟩)
      | none => exact .inr (.inr ⟨cause, told, by simp [told], came⟩)

/-- An attempt at a call: what the host refuses becomes a message. -/
theorem attemptAsk (discreet : host.Discreet) (reporting : host.Reporting) (call : Call) :
    Converses host ((host.ask call).attempt Failure.hostMessage?) fun responses result =>
      (∃ value state, (host.perform call state).result = .ok value ∧
        responses = [⟨call, .ok value⟩] ∧ result = .ok (.ok value)) ∨
      ∃ cause message, cause.hostMessage? = some message ∧ responses = [⟨call, .error cause⟩] ∧
        result = .ok (.error message) := by
  refine ((ask discreet reporting call).attempt Failure.hostMessage?).weaken
    fun responses result came => ?_
  rcases came with ⟨value, came, granted⟩ | ⟨cause, message, told, came, refused⟩ |
    ⟨cause, untold, _, refused⟩
  · rcases granted with ⟨other, state, granted, same, equal⟩ | ⟨_, _, _, _, equal⟩
    · obtain rfl := Except.ok.inj equal
      exact .inl ⟨value, state, granted, same, came⟩
    · cases equal
  · rcases refused with ⟨_, _, _, _, equal⟩ | ⟨other, _, _, same, equal⟩
    · cases equal
    · obtain rfl := Except.error.inj equal
      exact .inr ⟨cause, message, told, same, came⟩
  · rcases refused with ⟨_, _, _, _, equal⟩ | ⟨other, message, told, _, equal⟩
    · cases equal
    · obtain rfl := Except.error.inj equal
      rw [untold] at told
      cases told

end Converses

end Act

end InfraPins
