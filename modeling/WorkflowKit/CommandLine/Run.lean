import WorkflowKit.Catalog.Loading
import WorkflowKit.Catalog.Writing
import WorkflowKit.CommandLine.Command
import WorkflowKit.GitHub.Session
import WorkflowKit.Log.Filter
import WorkflowKit.Output

namespace WorkflowKit.CommandLine

structure Surroundings where
  environment : Environment
  workplace : Workplace
  network : Http.Network

/-- What a command leaves behind when it has run. -/
structure Run where
  printed : Octets
  notices : List Notice
  failure : Option Failure
  gitRuns : List Changes.GitRun
  arrived : List Http.Request
  files : Files

/-- What a command without requests prints and does. -/
def Run.ofAction (surroundings : Surroundings) (action : Action Printed) : Run :=
  let printed := action.result.toOption
  { printed := (printed.map (·.taken)).getD []
    notices := action.notices
    failure :=
      match action.result with
      | .ok printed => printed.failure
      | .error failure => some failure
    gitRuns := action.gitRuns
    arrived := []
    files := surroundings.workplace.files }

def printAnswer (sink : Sink) : MatrixAnswer → Printed
  | .value value => sink.print value.toJson
  | .deviceType type => sink.printType type

def matrixAction (surroundings : Surroundings) (question : MatrixQuestion)
    (parameters : Option String) : Action MatrixAnswer := do
  let catalog ← Action.ofExcept (Catalog.choose surroundings.workplace.files parameters)
  question.answer catalog surroundings.workplace

def buildConfig (surroundings : Surroundings) (platform : String) (parameters : Option String) :
    Except Failure (List String) := do
  let catalog ← Catalog.choose surroundings.workplace.files parameters
  match catalog.buildKeys? platform with
  | some keys => .ok keys
  | none => .error (.input (.unknownPlatform platform catalog.platforms))

/-- The call that an operation makes. A change of an issue is a JSON object. -/
def Operation.toCall : Operation → Except Failure GitHub.Call
  | .call made => .ok made
  | .update issue data =>
    match Json.read (Octets.ofText data) with
    | .error error => .error (.input (.malformedData error))
    | .ok (.object members) => .ok (.updateIssue issue (.object members))
    | .ok _ => .error (.input .dataNotObject)

/-- Holds of the calls of which the outcome is printed. -/
def printsOutcome : GitHub.Call → Bool
  | .createIssue .. | .searchIssues _ | .listComments _ | .listArtifacts _ => true
  | _ => false

/-- What is printed of the outcome of a call. -/
def printedOutcome (call : GitHub.Call) (outcome : GitHub.Outcome) : Printed :=
  match outcome with
  | .value value => if printsOutcome call then Sink.open.print value else ⟨[], none⟩
  | _ => ⟨[], none⟩

/-- Does something at the interface. -/
def runGitHub (surroundings : Surroundings) (access : GitHub.Access) (operation : Operation) :
    Run :=
  let files := surroundings.workplace.files
  let prepared : Except Failure (GitHub.Client × GitHub.Call) := do
    let client ← GitHub.Client.make access
    return (client, ← operation.toCall)
  match prepared with
  | .error failure => ⟨[], [], some failure, [], [], files⟩
  | .ok (client, call) =>
    let (result, session) := client.perform call (.start surroundings.network files)
    let notices := session.traffic.events.map .event
    let arrived := session.traffic.arrived
    match result with
    | .error failure => ⟨[], notices, some failure, [], arrived, session.files⟩
    | .ok outcome =>
      let printed := printedOutcome call outcome
      ⟨printed.taken, notices, printed.failure, [], arrived, session.files⟩

def Command.run (surroundings : Surroundings) : Command → Run
  | matrix question parameters =>
    Run.ofAction surroundings do
      let answer ← matrixAction surroundings question parameters
      return printAnswer .open answer
  | buildConfig platform parameters =>
    Run.ofAction surroundings do
      let keys ← Action.ofExcept (CommandLine.buildConfig surroundings platform parameters)
      return Sink.open.print (.ofTexts keys)
  | gitHub access operation => runGitHub surroundings access operation

end WorkflowKit.CommandLine
