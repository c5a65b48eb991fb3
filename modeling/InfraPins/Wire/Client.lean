import InfraPins.Host.Basic
import InfraPins.Json.Reader
import InfraPins.Wire.Url

/-! Speaking to a hosting service over HTTP. The service is a script: every request takes the next
answer of it, and once the script has run out every request is answered with a status of its own. -/

namespace InfraPins

structure Reply where
  status : Nat
  headers : List (String × String)
  body : String
  deriving DecidableEq, Repr

/-- What becomes of a request: a reply, or none in time, or none at all. -/
inductive Answer where
  | reply (reply : Reply)
  | timeout (message : String)
  | broken (message : String)
  deriving DecidableEq, Repr

/-- The answers that are still to come. -/
abbrev Wire := List Answer

/-- The answer to a request that the script has none for. -/
def Answer.missing : Answer :=
  .reply ⟨404, [], "no scripted response"⟩

/-- A part of a reply's header, empty if it is not there. The case of its name has no say. -/
def Reply.header (reply : Reply) (name : String) : String :=
  let same (header : String × String) : Bool :=
    header.1.toList.map Char.toLower == name.toList.map Char.toLower
  ((reply.headers.find? same).map (·.2)).getD ""

/-- What a client of a hosting service goes by: the name of the service, the base of its addresses,
and the headers that every request has. -/
structure Client where
  name : String
  base : String
  headers : List (String × String)
  deriving DecidableEq, Repr

/-- Named values of a request's query. -/
abbrev Parameters := List (String × String)

namespace Client

variable (client : Client)

/-- The names of the headers that the journal shows, of those that a request has. -/
def shownHeaders : List String :=
  ["authorization", "private-token", "x-github-api-version", "accept"]

def lowerName (header : String × String) : String × String :=
  (String.ofList (header.1.toList.map Char.toLower), header.2)

/-- Headers with another one, in place of one of the same name. -/
def putHeader (headers : List (String × String)) (header : String × String) :
    List (String × String) :=
  headers.filter (·.1 ≠ header.1) ++ [header]

def sentHeaders (own : List (String × String)) : List (String × String) :=
  let all := ((client.headers ++ own).map lowerName).foldl putHeader [("accept", "*/*")]
  all.filter fun header => shownHeaders.contains header.1

/-- A request. -/
structure Draft where
  method : String
  path : String
  parameters : Option Parameters := none
  body : Option Datum := none
  headers : List (String × String) := []

/-- A request to read something. -/
def Draft.get (path : String) (parameters : Option Parameters) : Draft :=
  { method := "GET", path, parameters }

/-- A request to create something, with the fields of its body. -/
def Draft.post (path : String) (body : List (String × Datum))
    (parameters : Option Parameters := none) : Draft :=
  { method := "POST", path, parameters, body := some (.ofFields body) }

/-- The words for a request in a message. -/
def Draft.text (draft : Draft) : String :=
  draft.method ++ " " ++ draft.path

/-- Sends a request. Every request can be built here: that an address has a control character in it or
is too long, or that a text has no encoding, is left out. -/
def send (draft : Draft) : Act Wire Answer := do
  Act.record (.sent {
    method := draft.method
    url := Url.address client.base draft.path draft.parameters
    headers := client.sentHeaders draft.headers
    body := draft.body })
  Act.modifyGet fun answers => match answers with
    | answer :: rest => (answer, rest)
    | [] => (Answer.missing, [])

/-- Fails with a message about a request. -/
def refuse (draft : Draft) (words : String) : Act Wire α :=
  Act.fail (.host (client.name ++ ": " ++ draft.text ++ " " ++ words))

/-- The first status that reports a failure. -/
def firstFailure : Nat := 400

/-- How much of a failing reply's body is reported. -/
def reportedLength : Nat := 200

/-- The reply to a request, unless it reports a failure. -/
def request (draft : Draft) : Act Wire Reply := do
  match (← client.send draft) with
  | .timeout _ => client.refuse draft "timed out"
  | .broken message => client.refuse draft ("failed: " ++ message)
  | .reply reply =>
    if firstFailure ≤ reply.status then
      client.refuse draft ("returned " ++ toString reply.status ++ ": "
        ++ String.ofList (reply.body.toList.take reportedLength))
    else return reply

/-- The value that a reply's body writes. A byte order mark at its start has no say. -/
def decode (draft : Draft) (reply : Reply) : Act Wire Datum :=
  let text := match reply.body.toList with
    | '\uFEFF' :: rest => String.ofList rest
    | _ => reply.body
  match Json.read? text with
  | some value => return value
  | none => client.refuse draft "returned invalid JSON"

/-- The list that a reply's body writes. -/
def decodeList (draft : Draft) (reply : Reply) : Act Wire (List Datum) := do
  match (← client.decode draft reply) with
  | .list items => return items
  | _ => client.refuse draft "did not return a list"

def requestValue (draft : Draft) : Act Wire Datum := do
  client.decode draft (← client.request draft)

def requestList (draft : Draft) : Act Wire (List Datum) := do
  client.decodeList draft (← client.request draft)

/-- Whether what a request asks for exists; a reply that it is not found says that it does not. -/
def exist (draft : Draft) : Act Wire Bool := do
  match (← client.send draft) with
  | .timeout message => client.refuse draft ("failed: " ++ message)
  | .broken message => client.refuse draft ("failed: " ++ message)
  | .reply reply =>
    if reply.status = 404 then return false
    else if firstFailure ≤ reply.status then
      client.refuse draft ("returned " ++ toString reply.status)
    else return true

/-- How the misuse of a reply's value is reported. Of a value of the wrong type the kind of misuse is
named, without the words that a run time has for it. -/
def shapeFailure (what : String) : Failure → Failure
  | .misuse cause =>
    .host (client.name ++ ": unexpected " ++ what ++ " response: " ++ cause.name)
  | cause => cause

/-- Uses the values of replies; a value that is not of the expected kind is a failure of the host.
-/
def expecting (what : String) (act : Act Wire α) : Act Wire α :=
  act.mapFailure (client.shapeFailure what)

/-- A number of requests that is certain to see the script run out. -/
def enough : Act Wire Nat :=
  Act.modifyGet fun answers => (answers.length + 1, answers)

end Client

end InfraPins
