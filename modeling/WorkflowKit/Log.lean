namespace WorkflowKit

inductive Level where
  | trace
  | debug
  | info
  | warn
  | error
  deriving DecidableEq, Repr

namespace Level

def name : Level → String
  | trace => "TRACE"
  | debug => "DEBUG"
  | info => "INFO"
  | warn => "WARN"
  | error => "ERROR"

/-- A larger rank is told in more detailed logs only. -/
def rank : Level → Nat
  | error => 1
  | warn => 2
  | info => 3
  | debug => 4
  | trace => 5

end Level

inductive Origin where
  | devices
  | changes
  | gitHub
  | lookup
  | transport
  deriving DecidableEq, Repr

def Origin.target : Origin → String
  | devices => "gha_tools::devices"
  | changes => "gha_tools::diff"
  | gitHub => "gha_tools::github"
  | lookup => "gha_tools::matrix"
  | transport => "octocrab"

/-- What a step tells of what it did. Who shows which events is decided later. -/
structure Event where
  level : Level
  origin : Origin
  message : String
  deriving DecidableEq, Repr

def Event.line (event : Event) : String :=
  event.level.name ++ " " ++ event.message

end WorkflowKit
