import WorkflowKit.Files
import WorkflowKit.GitHub.Answer
import WorkflowKit.GitHub.Client

namespace WorkflowKit.GitHub

/-- The traffic with the servers and the files at some point. A call gives an outcome and leaves a
session. -/
structure Session where
  traffic : Http.Traffic
  files : Files

namespace Session

def start (network : Http.Network) (files : Files) : Session :=
  ⟨.start network, files⟩

def log (session : Session) (level : Level) (call : Call) (message : String) : Session :=
  { session with traffic := session.traffic.log ⟨level, .gitHub, s!"{call.name}: {message}"⟩ }

def exchange (session : Session) (call : Call) (request : Http.Request) :
    Except Failure Http.Response × Session :=
  let (response, traffic) := session.traffic.exchange request
  (response.mapError fun fault => .gitHub call.name (.transport fault), { session with traffic })

end Session

/-- The text of a header, if all its characters are visible ones of ASCII, blanks or tabs. -/
def headerText? (value : Octets) : Option String :=
  if value.all fun b => b = 0x09 || (0x20 ≤ b && b ≤ 0x7E) then value.text? else none

namespace Client

def conclude (client : Client) (call : Call) (outcome : Outcome) (summary : String)
    (session : Session) : Except Failure Outcome × Session :=
  let place := client.address ++ call.shownRoute client.repository
  (.ok outcome, session.log .info call s!"{place} response: {summary}")

/-- Takes the response to a call as its answer. -/
def finish (client : Client) (call : Call) (response : Http.Response) (session : Session) :
    Except Failure Outcome × Session :=
  match call.answered response with
  | .error fault => (.error (.gitHub call.name fault), session)
  | .ok (outcome, summary) => client.conclude call outcome summary session

/-- Takes the response to a call as the content of a file. -/
def save (client : Client) (call : Call) (path : String) (response : Http.Response)
    (session : Session) : Except Failure Outcome × Session :=
  match call.answered response with
  | .error fault => (.error (.gitHub call.name fault), session)
  | .ok (outcome, summary) =>
    match session.files.write path response.body with
    | .error fault => (.error (.file path fault), session)
    | .ok files => client.conclude call outcome summary { session with files }

/-- The request for the place that a response points to. -/
def redirected (client : Client) (call : Call) (location : String) : Except Failure Http.Request :=
  match Http.Uri.parse location with
  | .error _ => .error (.gitHub call.name .badAddress)
  | .ok reference => .ok (client.request .get reference none)

/-- Follows a response to an artifact once if it points to another place. -/
def follow (client : Client) (call : Call) (response : Http.Response) (session : Session) :
    Except Failure Http.Response × Session :=
  match response.header? "location" with
  | none => (.ok response, session)
  | some value =>
    match headerText? value with
    | none => (.error (.service .badRedirect), session)
    | some location =>
      let session := session.log .debug call s!"following redirect to {location}"
      match client.redirected call location with
      | .error failure => (.error failure, session)
      | .ok request => session.exchange call request

/-- Makes a call. Only a download looks at where its response points to, and saves what it gets. -/
def perform (client : Client) (call : Call) (session : Session) :
    Except Failure Outcome × Session :=
  match client.requestOf call with
  | .error failure => (.error failure, session)
  | .ok request =>
    match session.exchange call request with
    | (.error failure, session) => (.error failure, session)
    | (.ok response, session) =>
      match call with
      | .downloadArtifact _ path =>
        match client.follow call response session with
        | (.error failure, session) => (.error failure, session)
        | (.ok response, session) => client.save call path response session
      | _ => client.finish call response session

end Client

/-- What came of a call, with the files as they were after it. -/
structure Step where
  call : Call
  result : Except Failure Outcome
  requests : List Http.Request
  events : List Event
  files : Files

namespace Client

/-- Makes a call with a network of its own. -/
def step (client : Client) (call : Call) (network : Http.Network) (files : Files) : Step :=
  let done := client.perform call (.start network files)
  { call
    result := done.1
    requests := done.2.traffic.arrived
    events := done.2.traffic.events
    files := done.2.files }

/-- Makes calls one after another. Each finds the files as the calls before it left them. -/
def performAll (client : Client) : List (Call × Http.Network) → Files → List Step
  | [], _ => []
  | (call, network) :: calls, files =>
    let step := client.step call network files
    step :: client.performAll calls step.files

end Client

end WorkflowKit.GitHub
