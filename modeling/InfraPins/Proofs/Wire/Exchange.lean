import InfraPins.Proofs.Journal
import InfraPins.Proofs.Result
import InfraPins.Wire.Client

namespace InfraPins

/-- The requests of a journal, in order. -/
def sent (events : List Event) : List Request :=
  events.filterMap fun event => match event with
    | .sent request => some request
    | _ => none

@[simp]
theorem sent_nil : sent [] = [] := rfl

@[simp]
theorem sent_append (events more : List Event) : sent (events ++ more) = sent events ++ sent more :=
  List.filterMap_append

/-- A request with its answer. -/
abbrev Exchange := Request × Answer

/-- Requests with the answers that a script gives them, one after another. -/
def exchanges (wire : Wire) : List Request → List Exchange
  | [] => []
  | request :: rest => (request, wire.head?.getD .missing) :: exchanges wire.tail rest

theorem exchanges_append (wire : Wire) (requests more : List Request) :
    exchanges wire (requests ++ more) =
      exchanges wire requests ++ exchanges (wire.drop requests.length) more := by
  induction requests generalizing wire with
  | nil => rfl
  | cons request requests ih =>
    simp only [List.cons_append, exchanges, ih, List.length_cons]
    cases wire <;> simp

/-- An answer is one of the script, unless that has run out. -/
theorem mem_of_mem_exchanges {wire : Wire} {requests : List Request} {exchange : Exchange}
    (member : exchange ∈ exchanges wire requests) : exchange.2 ∈ wire ∨ exchange.2 = .missing := by
  induction requests generalizing wire with
  | nil => cases member
  | cons request requests ih =>
    rcases List.mem_cons.mp member with rfl | behind
    · cases wire with
      | nil => exact .inr rfl
      | cons answer rest => exact .inl List.mem_cons_self
    · exact (ih behind).imp_left List.mem_of_mem_tail

namespace Act

variable {α β : Type} {good : List Exchange → Request → Prop} {known : List Exchange}

/-- What an operation keeps to when some exchanges are known: each request takes the next answer of
the script and is good after those before it, and a result has a property together with all the
exchanges that are known then. -/
structure Ensures (good : List Exchange → Request → Prop) (known : List Exchange)
    (act : Act Wire α) (post : List Exchange → α → Prop) : Prop where
  state : ∀ wire, (act wire).state = wire.drop (sent (act wire).events).length
  good : ∀ wire before request after, sent (act wire).events = before ++ request :: after →
    good (known ++ exchanges wire before) request
  post : ∀ wire value, (act wire).result = .ok value →
    post (known ++ exchanges wire (sent (act wire).events)) value

namespace Ensures

theorem of_silent {act : Act Wire α} {post : List Exchange → α → Prop}
    (state : ∀ wire, (act wire).state = wire) (silent : ∀ wire, sent (act wire).events = [])
    (result : ∀ wire value, (act wire).result = .ok value → post known value) :
    Ensures good known act post where
  state wire := by simp [state, silent]
  good wire before request after same := by simp [silent] at same
  post wire value found := by simpa [silent, exchanges] using result wire value found

theorem pure {value : α} {post : List Exchange → α → Prop} (holds : post known value) :
    Ensures good known (Pure.pure value) post :=
  of_silent (fun _ => rfl) (fun _ => rfl) fun _ _ same => by cases same; exact holds

theorem lift {result : Except Failure α} {post : List Exchange → α → Prop}
    (holds : ∀ value, result = .ok value → post known value) :
    Ensures good known (Act.lift result) post :=
  of_silent (fun _ => rfl) (fun _ => rfl) fun _ value same => holds value same

theorem use {result : Except Misuse α} {post : List Exchange → α → Prop}
    (holds : ∀ value, result = .ok value → post known value) :
    Ensures good known (Act.use result) post :=
  lift fun value same => holds value (by
    cases result with
    | error cause => cases same
    | ok other => cases same; rfl)

theorem fail {cause : Failure} {post : List Exchange → α → Prop} :
    Ensures good known (Act.fail cause) post :=
  of_silent (fun _ => rfl) (fun _ => rfl) fun _ _ same => by cases same

theorem log {level : Level} {text : String} :
    Ensures good known (Act.log level text : Act Wire Unit) fun all _ => all = known :=
  of_silent (fun _ => rfl) (fun _ => rfl) fun _ _ _ => rfl

theorem called {call : Call} :
    Ensures good known (Act.record (.called call) : Act Wire Unit) fun all _ => all = known :=
  of_silent (fun _ => rfl) (fun _ => rfl) fun _ _ _ => rfl

/-- One operation after another. The second one starts from what is known after the first. -/
theorem bind {first : Act Wire α} {next : α → Act Wire β} {middle : List Exchange → α → Prop}
    {post : List Exchange → β → Prop} (head : Ensures good known first middle)
    (rest : ∀ more value, middle (known ++ more) value →
      Ensures good (known ++ more) (next value) post) :
    Ensures good known (first >>= next) post := by
  have onward (wire : Wire) (value : α) (found : (first wire).result = .ok value) :=
    rest _ value (head.post wire value found)
  constructor
  · intro wire
    have start := head.state wire
    rw [bind_apply]
    cases outcome : first wire with
    | mk result events state =>
      rw [outcome] at start
      cases result with
      | error cause => simpa using start
      | ok value =>
        have tail := (onward wire value (by rw [outcome])).state state
        simp only at start
        simp only [sent_append, List.length_append, tail]
        rw [start, List.drop_drop]
  · intro wire before request after same
    have start := head.state wire
    have early := head.good wire
    rw [bind_apply] at same
    cases outcome : first wire with
    | mk result events state =>
      rw [outcome] at same start early
      cases result with
      | error cause => exact early before request after same
      | ok value =>
        have tail := (onward wire value (by rw [outcome])).good state
        simp only [sent_append] at same
        rcases append_split same with ⟨rest, front⟩ | ⟨rest, rfl, back⟩
        · exact early before request rest front
        · have here := tail rest request after back
          simp only at start
          simpa [exchanges_append, outcome, start] using here
  · intro wire value found
    have start := head.state wire
    rw [bind_apply] at found ⊢
    cases outcome : first wire with
    | mk result events state =>
      rw [outcome] at start found
      cases result with
      | error cause => cases found
      | ok middleValue =>
        have tail := (onward wire middleValue (by rw [outcome])).post state value found
        simp only at start
        simpa [exchanges_append, outcome, start] using tail

theorem weaken {act : Act Wire α} {post other : List Exchange → α → Prop}
    (ensured : Ensures good known act post)
    (implies : ∀ more value, post (known ++ more) value → other (known ++ more) value) :
    Ensures good known act other where
  state := ensured.state
  good := ensured.good
  post wire value found := implies _ value (ensured.post wire value found)

theorem mono {act : Act Wire α} {post : List Exchange → α → Prop}
    {better : List Exchange → Request → Prop} (ensured : Ensures better known act post)
    (implies : ∀ more request, better (known ++ more) request → good (known ++ more) request) :
    Ensures good known act post where
  state := ensured.state
  good wire before request after same := implies _ request (ensured.good wire before request after same)
  post := ensured.post

theorem attempt {act : Act Wire α} {message? : Failure → Option String}
    {post : List Exchange → α → Prop} (ensured : Ensures good known act post) :
    Ensures good known (act.attempt message?) fun all result =>
      ∀ value, result = .ok value → post all value where
  state := ensured.state
  good := ensured.good
  post wire result found value same := by
    subst same
    apply ensured.post wire value
    simp only [Act.attempt] at found
    cases inner : (act wire).result with
    | ok other => simpa [inner] using found
    | error cause =>
      cases told : message? cause <;> simp [inner, told] at found

theorem mapFailure {act : Act Wire α} {change : Failure → Failure}
    {post : List Exchange → α → Prop} (ensured : Ensures good known act post) :
    Ensures good known (act.mapFailure change) post where
  state := ensured.state
  good := ensured.good
  post wire value found := by
    apply ensured.post wire value
    exact Result.mapError_eq_ok.mp found

/-- One operation for each item. What holds of a result has to go on holding. -/
theorem mapM {items : List β} {act : β → Act Wire α} {holds : List Exchange → α → Prop}
    (onward : ∀ all more value, holds all value → holds (all ++ more) value)
    (each : ∀ more item, Ensures good (known ++ more) (act item) holds) :
    Ensures good known (items.mapM act) fun all values => ∀ value ∈ values, holds all value := by
  induction items generalizing known with
  | nil => exact pure (by simp)
  | cons item items ih =>
    rw [List.mapM_cons]
    refine Ensures.bind (by simpa using each [] item) fun more first here => ?_
    refine (ih fun next other => by simpa using each (more ++ next) other).bind
      fun next rest there => pure ?_
    intro value member
    rcases List.mem_cons.mp member with rfl | member
    · exact onward _ _ _ here
    · exact there value member

end Ensures

end Act

end InfraPins
