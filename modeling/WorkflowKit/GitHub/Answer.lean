import WorkflowKit.GitHub.Call
import WorkflowKit.GitHub.Fault
import WorkflowKit.Json.Record

namespace WorkflowKit.GitHub

/-- What a call gives to the one who made it. -/
inductive Outcome where
  | done
  | value (value : Json)
  | saved (octets : Nat)

def reportShape : Json.Shape where
  name := "GitHubErrorBody"
  fields := [("documentation_url", .optionalText), ("errors", .optionalList), ("message", .text)]

def searchShape : Json.Shape where
  name := "SearchResponse"
  fields := [("items", .list)]

def artifactShape : Json.Shape where
  name := "ArtifactList"
  fields := [("artifacts", .list)]

def labelShape : Json.Shape where
  name := "Label"
  fields :=
    [("id", .natural), ("node_id", .text), ("url", .address), ("name", .text),
     ("description", .optionalText), ("color", .text), ("default", .truth)]

/-- The report of an error, from an answer that is no success. -/
def reportOf (response : Http.Response) : Fault :=
  match Json.readWholeRecord reportShape response.body with
  | .error error => .unreadableReport error
  | .ok fields =>
    .reported
      { status := response.status
        message := (fields[2]?.bind Json.text?).getD ""
        documentation := fields[0]?.bind Json.text?
        errors := fields[1]?.bind Json.items? }

/-- The only field of a record, a list. -/
def listOf (shape : Json.Shape) (body : Octets) : Except Json.Error (List Json) :=
  (Json.readRecord shape body).map fun fields => (fields.head?.bind Json.items?).getD []

/-- What is logged about a value: the size of a list, the number of an issue, or another mark. -/
def summary (value : Json) : String :=
  match value with
  | .array items => s!"{items.length} items"
  | .object _ =>
    match value.member? "number", value.member? "id" with
    | some number, _ => "#" ++ number.written
    | none, some id => "id " ++ id.written
    | none, none => "ok"
  | _ => value.written

/-- The outcome of a call that the server answers with a success, and what is logged about it. -/
def Call.read (call : Call) (body : Octets) : Except Json.Error (Outcome × String) :=
  match call with
  | .createIssue .. | .listComments _ => do
    let value ← Json.readFirst body
    .ok (.value value, summary value)
  | .searchIssues _ => do
    let items ← listOf searchShape body
    .ok (.value (.array items), s!"{items.length} items")
  | .listArtifacts _ => do
    let artifacts ← listOf artifactShape body
    .ok (.value (.array artifacts), s!"{artifacts.length} artifacts")
  | .deleteLabel .. => do
    let labels ← Json.readRecordList labelShape body
    .ok (.done, s!"{labels.length} labels remaining")
  | .deleteComment _ => .ok (.done, "deleted")
  | .downloadArtifact .. => .ok (.saved body.length, s!"{body.length} bytes")
  | _ => do
    let value ← Json.readFirst body
    .ok (.done, summary value)

def Call.answered (call : Call) (response : Http.Response) : Except Fault (Outcome × String) :=
  if response.isSuccess then (call.read response.body).mapError .unreadableAnswer
  else .error (reportOf response)

end WorkflowKit.GitHub
