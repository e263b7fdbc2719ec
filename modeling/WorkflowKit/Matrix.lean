import WorkflowKit.Action
import WorkflowKit.Catalog.DeviceSelection
import WorkflowKit.Catalog.Override
import WorkflowKit.Changes.Narrowing

namespace WorkflowKit

/-- What git would do in the working directory, and the files there. -/
structure Workplace where
  git : Option Changes.GitAnswer
  files : Files

namespace Catalog

def ask (catalog : Catalog) (query : Query) : Action Setting :=
  match catalog.find? query with
  | some finding => do
    Action.log [query.event finding.layer]
    return finding.value
  | none => .fail (.noParameter query)

end Catalog

namespace Registry

def askType (registry : Registry) (id : String) : Action DeviceType :=
  match registry.get? id with
  | some device => .done device.type
  | none => .fail (.noDevice id)

/-- Keeps the devices of the types that are named between commas. -/
def narrow (registry : Registry) (types : String) (ids : List String) : Action (List String) :=
  match DeviceType.parseList types with
  | .error name => .fail (.input (.unknownDeviceType name))
  | .ok types => do
    let selection := registry.select types ids
    Action.log selection.events
    return selection.kept

end Registry

namespace Changes

/-- Asks git in a directory for the paths changed relative to a branch. -/
def paths (workplace : Workplace) (directory branch : String) : Action (List String) :=
  let report := askGit workplace.git workplace.files directory branch
  { result := report.paths.mapError fun fault => .service (.git fault)
    notices := (report.events branch).map .event
    gitRuns := report.run.toList }

/-- Narrows the value of a key to what has changed relative to a branch. Git is not asked about keys
that are not narrowed. -/
def narrowTo (workplace : Workplace) (directory branch key : String) (value : Setting) :
    Action Outcome :=
  if key = apisKey ∨ key = platformKey then do
    let changed ← paths workplace directory branch
    let (outcome, events) := narrow key value changed
    Action.log events
    return outcome
  else .done (.untouched value)

end Changes

def workingDirectory : String := "."

structure MatrixQuestion where
  query : Query
  /-- The value that is given in place of that of the catalog. -/
  given : Option String
  /-- Asks for the type of the device that the key names. -/
  device : Bool
  deviceTypes : String
  branch : Option String
  deriving DecidableEq, Repr

inductive MatrixAnswer where
  | value (value : Setting)
  | deviceType (type : DeviceType)
  deriving DecidableEq, Repr

namespace MatrixQuestion

/-- The workflow whose devices are narrowed to the types wanted. -/
def deviceWorkflow : String := "integration_tests"

def deviceKeys : List String := ["android_device", "ios_device"]

/-- The value that is given, if it is not empty. -/
def replacement? (question : MatrixQuestion) : Option Setting :=
  (question.given.filter (· ≠ "")).map fun raw => Setting.given raw question.query.kind

/-- Narrows a list of devices to the types wanted. -/
def narrowDevices (question : MatrixQuestion) (catalog : Catalog) (value : Setting) :
    Action Setting :=
  match value with
  | .list ids =>
    if question.query.workflow = deviceWorkflow ∧ question.query.key ∈ deviceKeys then do
      let kept ← catalog.devices.narrow question.deviceTypes ids
      return .list kept
    else .done value
  | .text _ => .done value

/-- Narrows a value to what has changed, if a branch to compare with is given. -/
def narrowChanges (question : MatrixQuestion) (workplace : Workplace) (value : Setting) :
    Action Setting :=
  match question.branch with
  | none => .done value
  | some branch => do
    let key := question.query.key
    let outcome ← Changes.narrowTo workplace workingDirectory branch key value
    Action.remark (outcome.remark key)
    return outcome.value

/-- A given value is the answer as it is, and a device is asked for its type. Else the catalog is
asked, and its value is narrowed: devices to the types wanted, and the rest to what has changed. -/
def answer (question : MatrixQuestion) (catalog : Catalog) (workplace : Workplace) :
    Action MatrixAnswer :=
  match question.replacement? with
  | some value => .done (.value value)
  | none =>
    if question.device then do
      let type ← catalog.devices.askType question.query.key
      return .deviceType type
    else do
      let found ← catalog.ask question.query
      let wanted ← question.narrowDevices catalog found
      let narrowed ← question.narrowChanges workplace wanted
      return .value narrowed

end MatrixQuestion

end WorkflowKit
