import WorkflowKit.Json.Fault
import WorkflowKit.Json.Value
import WorkflowKit.Http.Exchange

namespace WorkflowKit.GitHub

structure Report where
  status : Nat
  message : String
  documentation : Option String
  errors : Option (List Json)

namespace Report

/-- The text of a report, with a link and further errors if there are any. -/
def text (report : Report) : String :=
  let link := (report.documentation.map ("\nDocumentation URL: " ++ ·)).getD ""
  let errors := report.errors.getD []
  let list := errors.map fun error => "\n- " ++ error.written
  report.message ++ link ++ if errors.isEmpty then "" else "\nErrors:" ++ String.join list

end Report

inductive Fault where
  | reported (report : Report)
  /-- The answer is a failure, but no report. -/
  | unreadableReport (error : Json.Error)
  /-- The answer is a success that does not have the expected content. -/
  | unreadableAnswer (error : Json.Error)
  | badRoute (fault : Http.UriFault)
  | badAddress
  | badRequest (fault : Http.UriFault)
  | transport (fault : Http.TransportFault)

namespace Fault

def detail : Fault → String
  | reported report => report.text
  | unreadableReport error => error.message
  | unreadableAnswer error => error.locatedMessage
  | badRoute fault => fault.message
  | badAddress => "Failed to parse URI"
  | badRequest fault => fault.message
  | transport _ => ""

def status? : Fault → Option Nat
  | reported report => some report.status
  | _ => none

/-- The text that a user of the program sees. Where a request was on its way, an empty line
follows. -/
def shown : Fault → String
  | reported _ => "GitHub"
  | unreadableReport error => s!"Serde Error: {error.message}"
  | unreadableAnswer error => s!"JSON Error in {Json.pathText error.path}: {error.message}"
  | badRoute _ => "Uri"
  | badAddress => "UriParse"
  | badRequest fault => s!"HTTP Error: {fault.message}\n"
  | transport fault => s!"Service Error: {fault.message}\n"

end Fault

end WorkflowKit.GitHub
