import WorkflowKit.Http.Message
import WorkflowKit.Log

namespace WorkflowKit.Http

inductive TransportFault where
  | noConnection
  /-- The address of the request names no server. -/
  | noServer
  /-- The address names a server without a scheme: what sends requests breaks down over it. -/
  | breakdown
  deriving DecidableEq, Repr

def TransportFault.message : TransportFault → String
  | noConnection => "client error (Connect)"
  | noServer => "client error (UserAbsoluteUriRequired)"
  | breakdown => "buffer's worker closed unexpectedly"

/-- Holds of faults that are logged. A breakdown leaves nothing that could log it. -/
def TransportFault.isLogged (fault : TransportFault) : Bool :=
  fault ≠ .breakdown

/-- The servers that can be reached, and what they will answer: one response after another, and the
last one again and again. -/
structure Network where
  servers : List String
  answers : List Response
  deriving DecidableEq, Repr

def Network.unreachable : Network := ⟨[], []⟩

/-- A network, the requests that arrived there, and what was logged about them. -/
structure Traffic where
  network : Network
  arrived : List Request
  events : List Event
  deriving DecidableEq, Repr

namespace Traffic

def start (network : Network) : Traffic := ⟨network, [], []⟩

def log (traffic : Traffic) (event : Event) : Traffic :=
  { traffic with events := traffic.events ++ [event] }

def sendOnce (request : Request) (traffic : Traffic) :
    Except TransportFault Response × Traffic :=
  match request.uri.scheme, request.uri.authority with
  | some _, some authority =>
    if traffic.network.servers.contains authority then
      let answers := traffic.network.answers
      let left := if answers.length ≤ 1 then answers else answers.drop 1
      (.ok (answers.head?.getD .empty),
        { traffic with
          network := { traffic.network with answers := left }
          arrived := traffic.arrived ++ [request] })
    else (.error .noConnection, traffic)
  | none, some _ => (.error .breakdown, traffic)
  | _, none => (.error .noServer, traffic)

/-- Holds of a response after which the request is worth repeating. -/
def isTemporary (response : Response) : Bool :=
  response.isServerError || response.status = 429

/-- Sends a request, and again for a number of times while the failure is temporary. -/
def sendAgain (request : Request) : Nat → Traffic → Except TransportFault Response × Traffic
  | 0, traffic => traffic.sendOnce request
  | times + 1, traffic =>
    match traffic.sendOnce request with
    | (.ok response, after) =>
      if isTemporary response then sendAgain request times after else (.ok response, after)
    | (.error fault, after) => (.error fault, after)

def repeatLimit : Nat := 3

/-- Sends a request, and repeats it if need be. Most failures are logged. -/
def send (request : Request) (traffic : Traffic) : Except TransportFault Response × Traffic :=
  match traffic.sendAgain request repeatLimit with
  | (.ok response, after) =>
    if response.isServerError then
      let phrase := serverErrorPhrase response.status
      (.ok response,
        after.log ⟨.error, .transport, s!"failed with status {response.status} {phrase}"⟩)
    else (.ok response, after)
  | (.error fault, after) =>
    let event : Event := ⟨.error, .transport, s!"failed with error {fault.message}"⟩
    (.error fault, if fault.isLogged then after.log event else after)

/-- The request that a redirect asks for, without its address. A request with a body is not sent
again unless the body is given up. -/
def redirected (request : Request) (status : Nat) : Option Request :=
  let bare := { request with method := .get, contentType := none, body := [] }
  let again := if request.body.isEmpty then some request else none
  if status = 301 ∨ status = 302 then if request.method = .post then some bare else again
  else if status = 303 then some bare
  else if status = 307 ∨ status = 308 then again
  else none

/-- The request that follows a response, if there is one. The authorization is not carried to
another server. -/
def next? (request : Request) (response : Response) : Option Request := do
  let again ← redirected request response.status
  let location ← response.header? "location"
  let reference ← location.text?
  let uri ← request.uri.resolve reference
  some { again with
    uri
    authorization := if request.uri.sameOrigin uri then again.authorization else none }

/-- How many redirects are followed in a row. -/
def redirectLimit : Nat := 20

def followed : Nat → Request → Traffic → Except TransportFault Response × Traffic
  | 0, request, traffic => traffic.send request
  | times + 1, request, traffic =>
    match traffic.send request with
    | (.ok response, after) =>
      match next? request response with
      | some again => followed times again after
      | none => (.ok response, after)
    | (.error fault, after) => (.error fault, after)

/-- Exchanges a request for the last response to it. A request is repeated when the server fails or
is too busy, and redirects are followed. -/
def exchange (request : Request) (traffic : Traffic) : Except TransportFault Response × Traffic :=
  followed redirectLimit request traffic

end Traffic

end WorkflowKit.Http
