import WorkflowKit.Catalog.Lookup
import WorkflowKit.Catalog.Validation
import WorkflowKit.Changes.Git
import WorkflowKit.GitHub.Fault
import WorkflowKit.Text.Quoted
import WorkflowKit.Yaml.Fault

namespace WorkflowKit

inductive InputFault where
  | catalog (offence : Offence)
  | unknownDeviceType (name : String)
  | unknownPlatform (name : String) (known : List String)
  | malformedData (error : Json.Error)
  | dataNotObject
  | other (text : String)

def InputFault.message : InputFault → String
  | catalog offence => offence.message
  | unknownDeviceType name => s!"unknown device type '{name}', expected 'real' or 'virtual'"
  | unknownPlatform name known =>
    s!"unknown platform '{name}', expected one of: " ++ ", ".intercalate known
  | malformedData error => s!"--data must be a JSON object: {error.message}"
  | dataNotObject => "--data must be a JSON object"
  | other text => text

/-- What goes wrong outside the program. What git says about itself is not told. -/
inductive ServiceFault where
  | git (fault : Changes.GitFault)
  | unwritten (what reason : String)
  | badRedirect
  | other (text : String)

def ServiceFault.message : ServiceFault → String
  | git _ => "Service error"
  | unwritten what reason => s!"failed to write {what}: {reason}"
  | badRedirect =>
    "download_artifact: invalid redirect location: failed to convert header to a str"
  | other text => text

/-- Why a step of the program fails. -/
inductive Failure where
  | file (path : String) (fault : FileFault)
  | table (fault : Yaml.Fault)
  | input (fault : InputFault)
  | unprinted (reason : String)
  | noParameter (query : Query)
  | noDevice (id : String)
  | noToken (operation : String)
  | gitHub (operation : String) (fault : GitHub.Fault)
  | service (fault : ServiceFault)
  /-- The token cannot stand in a header. The program stops at once. -/
  | unfitToken

def Failure.message : Failure → String
  | file path fault => s!"I/O failure at {Text.quoted path}: {fault.message}"
  | table fault => s!"failed to parse parameter table: {fault.message}"
  | input fault => s!"invalid input: {fault.message}"
  | unprinted reason => s!"failed to serialize value: {reason}"
  | noParameter query =>
    let place := s!"workflow '{query.workflow}' (expanded = {query.expanded})"
    s!"parameter key '{query.key}' of type '{query.kind.name}' not found for {place}"
  | noDevice id => s!"unknown test device '{id}'"
  | noToken operation => s!"{operation} requires a GitHub token"
  | gitHub operation fault => s!"{operation} failed: {fault.shown}"
  | service fault => s!"service error: {fault.message}"
  | unfitToken => "the token cannot be sent in a header"

end WorkflowKit
