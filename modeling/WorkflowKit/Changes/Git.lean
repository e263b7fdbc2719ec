import WorkflowKit.Files
import WorkflowKit.Log
import WorkflowKit.Text.Blank
import WorkflowKit.Text.Pieces

namespace WorkflowKit.Changes

/-- What git prints when it runs, and its exit status. -/
structure GitAnswer where
  stdout : Octets
  stderr : Octets
  status : Int
  deriving DecidableEq, Repr

/-- An exit status has eight bits, and zero is success. -/
def GitAnswer.succeeded (answer : GitAnswer) : Bool :=
  answer.status % 256 = 0

/-- A run of git: its arguments and where it ran. -/
structure GitRun where
  arguments : List String
  directory : Location
  deriving DecidableEq, Repr

inductive GitFault where
  | notStarted (reason : FileFault)
  | nulInArgument
  | failed (branch : String) (stderr : Octets)
  deriving DecidableEq, Repr

def GitFault.detail : GitFault → String
  | notStarted reason => s!"git diff failed: {reason.message}"
  | nulInArgument => "git diff failed: nul byte found in provided data"
  | failed branch stderr =>
    s!"git diff --name-only {branch} failed: {stderr.lossyText}"

/-- The outcome of asking git, and how it was asked if it was. -/
structure GitReport where
  paths : Except GitFault (List String)
  run : Option GitRun

/-- The arguments with which git lists the paths changed relative to a branch. -/
def gitArguments (branch : String) : List String :=
  ["diff", "--name-only", branch]

/-- The paths in the output of git: its lines without blanks at their ends, each once. -/
def listedPaths (stdout : Octets) : List String :=
  (((Text.lines stdout.lossyText).map Text.trim).filter (· ≠ "")).eraseDups

/-- Asks git in a directory for the paths changed relative to a branch. There may be no git. -/
def askGit (git : Option GitAnswer) (files : Files) (directory branch : String) : GitReport :=
  if directory.toList.contains '\x00' || branch.toList.contains '\x00' then
    ⟨.error .nulInArgument, none⟩
  else
    match files.directory directory, git with
    | .error reason, _ => ⟨.error (.notStarted reason), none⟩
    | .ok _, none => ⟨.error (.notStarted .notFound), none⟩
    | .ok location, some answer =>
      let run : GitRun := ⟨gitArguments branch, location⟩
      if answer.succeeded then ⟨.ok (listedPaths answer.stdout), some run⟩
      else ⟨.error (.failed branch answer.stderr), some run⟩

def GitReport.events (report : GitReport) (branch : String) : List Event :=
  match report.paths with
  | .ok paths => [⟨.debug, .changes, s!"{paths.length} paths changed relative to {branch}"⟩]
  | .error _ => []

end WorkflowKit.Changes
