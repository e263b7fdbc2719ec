import WorkflowKit.Failure
import WorkflowKit.Log

namespace WorkflowKit

/-- What the user is told while the program runs. -/
inductive Notice where
  | event (event : Event)
  /-- A line for those who read about a run of a workflow. -/
  | remark (line : String)
  deriving DecidableEq, Repr

/-- A step of the program with its result or failure. What it told its user and how it ran git
meanwhile is kept in order. After a failure nothing more happens. -/
structure Action (α : Type) where
  result : Except Failure α
  notices : List Notice
  gitRuns : List Changes.GitRun

namespace Action

variable {α β : Type}

def done (value : α) : Action α := ⟨.ok value, [], []⟩

def fail (failure : Failure) : Action α := ⟨.error failure, [], []⟩

/-- Gives the result or the failure that is already known. -/
def ofExcept (result : Except Failure α) : Action α := ⟨result, [], []⟩

def log (events : List Event) : Action Unit := ⟨.ok (), events.map .event, []⟩

def remark (line : Option String) : Action Unit :=
  ⟨.ok (), (line.map Notice.remark).toList, []⟩

/-- Does one action after another, which depends on the first one's result. -/
def andThen (first : Action α) (next : α → Action β) : Action β :=
  match first.result with
  | .ok value =>
    { result := (next value).result
      notices := first.notices ++ (next value).notices
      gitRuns := first.gitRuns ++ (next value).gitRuns }
  | .error failure => ⟨.error failure, first.notices, first.gitRuns⟩

instance : Monad Action where
  pure := done
  bind := andThen

def events (action : Action α) : List Event :=
  action.notices.filterMap fun
    | .event event => some event
    | .remark _ => none

end Action

end WorkflowKit
