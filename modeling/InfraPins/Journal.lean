import InfraPins.Failure
import InfraPins.Repository

/-! Operations that change a state and keep a journal. The journal lists, in order, what was logged,
which operations were asked of a hosting service, which requests were sent, and which updaters were
consulted; it is kept also when an operation fails. -/

namespace InfraPins

/-- The severity of a log record. -/
inductive Level where
  | debug
  | info
  | warning
  | error
  deriving DecidableEq, Repr

def Level.name : Level → String
  | .debug => "DEBUG"
  | .info => "INFO"
  | .warning => "WARNING"
  | .error => "ERROR"

/-- An operation asked of a hosting service. -/
inductive Call where
  | discover (organization : String)
  | listFiles (repository : Repository) (suffix : String)
  | fetchFile (repository : Repository) (path : String)
  | listTags (repository : Repository)
  | hasFile (repository : Repository) (path : String)
  | createBranch (repository : Repository) (branch : BranchInput)
  | openPullRequest (repository : Repository) (input : PullRequestInput)
  | pullRequestExists (repository : Repository) (branch : String)
  | close
  deriving DecidableEq

/-- A request to a hosting service over HTTP. -/
structure Request where
  method : String
  url : String
  headers : List (String × String)
  body : Option Datum
  deriving DecidableEq

inductive Event where
  | log (level : Level) (text : String)
  | opened (hostType token : String) (baseUrl : Option String)
  | called (call : Call)
  | sent (request : Request)
  | detected (updater : String) (repository : Repository)
  | updated (updater : String) (repository : Repository) (options : UpdateOptions)
  deriving DecidableEq

/-- What an operation came to: its result, its part of the journal, and the state it left. -/
structure Outcome (σ α : Type) where
  result : Except Failure α
  events : List Event
  state : σ

/-- An operation on a state. -/
def Act (σ α : Type) := σ → Outcome σ α

namespace Act

variable {σ α β : Type}

/-- An operation that only gives a value. -/
protected def pure (value : α) : Act σ α :=
  fun state => ⟨.ok value, [], state⟩

/-- One operation after another, unless the first fails. -/
protected def bind (first : Act σ α) (next : α → Act σ β) : Act σ β :=
  fun state =>
    match first state with
    | ⟨.ok value, events, state⟩ =>
      let outcome := next value state
      ⟨outcome.result, events ++ outcome.events, outcome.state⟩
    | ⟨.error cause, events, state⟩ => ⟨.error cause, events, state⟩

instance : Monad (Act σ) where
  pure := Act.pure
  bind := Act.bind

theorem pure_apply (value : α) (state : σ) :
    (pure value : Act σ α) state = ⟨.ok value, [], state⟩ := rfl

theorem bind_apply (first : Act σ α) (next : α → Act σ β) (state : σ) :
    (first >>= next) state =
      match first state with
      | ⟨.ok value, events, state⟩ =>
        ⟨(next value state).result, events ++ (next value state).events, (next value state).state⟩
      | ⟨.error cause, events, state⟩ => ⟨.error cause, events, state⟩ := rfl

instance : LawfulMonad (Act σ) := LawfulMonad.mk' (Act σ)
  (fun act => by
    funext state
    change (act >>= fun value => pure value) state = act state
    rw [bind_apply]
    cases outcome : act state with
    | mk result events after => cases result <;> simp [pure_apply])
  (fun value next => by
    funext state
    rw [bind_apply, pure_apply]
    simp)
  (fun act next last => by
    funext state
    simp only [bind_apply]
    cases outcome : act state with
    | mk result events after =>
      cases result with
      | error cause => rfl
      | ok value =>
        simp only
        cases outcome' : next value after with
        | mk result' events' after' => cases result' <;> simp [List.append_assoc])

def fail (cause : Failure) : Act σ α :=
  fun state => ⟨.error cause, [], state⟩

/-- The value of a computation, or its failure. -/
def lift (result : Except Failure α) : Act σ α :=
  fun state => ⟨result, [], state⟩

def use (result : Except Misuse α) : Act σ α :=
  lift (Failure.ofMisuse result)

/-- Puts an entry into the journal. -/
def record (event : Event) : Act σ Unit :=
  fun state => ⟨.ok (), [event], state⟩

def log (level : Level) (text : String) : Act σ Unit :=
  record (.log level text)

/-- Applies a function to the state. -/
def modifyGet (step : σ → α × σ) : Act σ α :=
  fun state => ⟨.ok (step state).1, [], (step state).2⟩

/-- Turns those failures into values for which there is a message; others stay failures. -/
def attempt (message? : Failure → Option String) (act : Act σ α) : Act σ (Except String α) :=
  fun state =>
    let outcome := act state
    let result := match outcome.result with
      | .ok value => .ok (.ok value)
      | .error cause => match message? cause with
        | some message => .ok (.error message)
        | none => .error cause
    ⟨result, outcome.events, outcome.state⟩

/-- Does one thing after another whether the first fails or not, and gives the result of the first
unless the second fails. -/
def ensuring (act : Act σ α) (last : Act σ Unit) : Act σ α :=
  fun state =>
    let outcome := act state
    let ending := last outcome.state
    let result := match ending.result with
      | .ok () => outcome.result
      | .error cause => .error cause
    ⟨result, outcome.events ++ ending.events, ending.state⟩

/-- Gives every failure another form. -/
def mapFailure (change : Failure → Failure) (act : Act σ α) : Act σ α :=
  fun state =>
    let outcome := act state
    ⟨outcome.result.mapError change, outcome.events, outcome.state⟩

end Act

def Failure.hostMessage? : Failure → Option String
  | .host message => some message
  | .unknownHost name => some (Failure.unknownHost name).message
  | _ => none

/-- The message of a failure that an updater reports: a host's, or its own. -/
def Failure.updateMessage? : Failure → Option String
  | .update message => some message
  | cause => cause.hostMessage?

end InfraPins
