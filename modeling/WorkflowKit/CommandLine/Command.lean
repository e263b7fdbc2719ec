import WorkflowKit.CommandLine.Words
import WorkflowKit.GitHub.Client
import WorkflowKit.Matrix
import WorkflowKit.Text.Natural

namespace WorkflowKit.CommandLine

inductive Operation where
  | call (call : GitHub.Call)
  /-- Changes an issue as a JSON text says. -/
  | update (issue : Nat) (data : String)

inductive Command where
  /-- Answers a question for a matrix, from the catalog in a file or the usual one. -/
  | matrix (question : MatrixQuestion) (parameters : Option String)
  /-- Tells the keys of a platform's build configuration. -/
  | buildConfig (platform : String) (parameters : Option String)
  | gitHub (access : GitHub.Access) (operation : Operation)

def flag (name : String) (letter : Char) : OptionForm :=
  ⟨name, [], some letter, .nothing⟩

def valued (name : String) : OptionForm :=
  ⟨name, [], none, .value⟩

def parametersOption : OptionForm := valued "parameters"

def programForm : Form where
  options := [.help, ⟨"version", [], some 'V', .halt .versionWanted⟩]
  operands := 0
  commands := ["matrix", "build-config", "github", "help"]

def matrixForm : Form where
  options :=
    [.help, flag "config" 'c', ⟨"workflow", [], some 'w', .value⟩,
     ⟨"expanded", [], some 'e', .perhapsValue⟩, ⟨"parm-key", ["parm_key"], some 'k', .value⟩,
     ⟨"auto-diff", ["auto_diff"], some 'a', .value⟩, ⟨"override", [], some 'o', .value⟩,
     flag "device" 'd', ⟨"device-type", ["device_type"], some 't', .value⟩, parametersOption]
  operands := 0
  commands := []

def buildConfigForm : Form where
  options := [.help, parametersOption]
  operands := 1
  commands := []

/-- What a word of a call is called in the options. -/
def operationOptions : List (String × List String) :=
  [("create-issue", ["title", "label"]), ("update-issue", ["issue", "data"]),
   ("open-issue", ["issue"]), ("close-issue", ["issue"]),
   ("update-issue-comment", ["issue", "comment"]), ("search-issues", ["label"]),
   ("list-comments", ["issue"]), ("add-comment", ["issue", "comment"]),
   ("update-comment", ["comment-id", "comment"]), ("delete-comment", ["comment-id"]),
   ("add-label", ["issue", "label"]), ("delete-label", ["issue", "label"]),
   ("list-artifacts", ["run-id"]), ("download-artifact", ["artifact-id", "output"])]

def gitHubForm : Form where
  options := [.help, valued "token", valued "owner", valued "repo", valued "api-url"]
  operands := 0
  commands := operationOptions.map (·.1) ++ ["help"]

def operationForm (name : String) : Form where
  options := .help :: ((operationOptions.lookup name).getD []).map valued
  operands := 0
  commands := []

def truth? (text : String) : Option Bool :=
  let lower := text.map Char.toLower
  if ["y", "yes", "t", "true", "on", "1"].contains lower then some true
  else if ["n", "no", "f", "false", "off", "0"].contains lower then some false
  else none

/-- The largest number of an issue, a comment, a run or an artifact. -/
def numberLimit : Nat := Nat.pow 2 64 - 1

/-- A number, after a plus sign or none. -/
def number? (text : String) : Option Nat :=
  (Text.natural? text).filter (· ≤ numberLimit)

namespace Words

def number (words : Words) (name : String) : Except Halt Nat := do
  match number? (← words.value name) with
  | some n => .ok n
  | none => .error .misuse

def path? (words : Words) (name : String) : Except Halt (Option String) :=
  match words.value? name with
  | some "" => .error .misuse
  | path => .ok path

/-- Whether an option with a truth value is set. Without its value it is. -/
def truth (words : Words) (name : String) : Except Halt Bool :=
  match words.options.lookup name with
  | none => .ok false
  | some none => .ok true
  | some (some text) =>
    match truth? text with
    | some value => .ok value
    | none => .error .misuse

end Words

def defaultDeviceTypes : String := "real,virtual"

def readMatrix (arguments : List String) : Except Halt Command := do
  let words ← Words.ofArguments matrixForm arguments
  let parameters ← words.path? "parameters"
  let query : Query :=
    { workflow := (words.value? "workflow").getD Catalog.usualDefault
      key := ← words.value "parm-key"
      expanded := ← words.truth "expanded"
      kind := .ofConfigFlag (words.has "config") }
  let question : MatrixQuestion :=
    { query
      given := words.value? "override"
      device := words.has "device"
      deviceTypes := (words.value? "device-type").getD defaultDeviceTypes
      branch := words.value? "auto-diff" }
  .ok (.matrix question parameters)

def readBuildConfig (arguments : List String) : Except Halt Command := do
  let words ← Words.ofArguments buildConfigForm arguments
  let parameters ← words.path? "parameters"
  match words.operands.head? with
  | some platform => .ok (.buildConfig platform parameters)
  | none => .error .misuse

/-- Reads what is done at the interface, from the name of a command and what follows it. -/
def readOperation (name : String) (arguments : List String) : Except Halt Operation := do
  let words ← Words.ofArguments (operationForm name) arguments
  let text := words.value
  let number := words.number
  match name with
  | "create-issue" => return .call (.createIssue (← text "title") (← text "label"))
  | "update-issue" => return .update (← number "issue") (← text "data")
  | "open-issue" => return .call (.openIssue (← number "issue"))
  | "close-issue" => return .call (.closeIssue (← number "issue"))
  | "update-issue-comment" =>
    return .call (.updateIssueText (← number "issue") (← text "comment"))
  | "search-issues" => return .call (.searchIssues (← text "label"))
  | "list-comments" => return .call (.listComments (← number "issue"))
  | "add-comment" => return .call (.addComment (← number "issue") (← text "comment"))
  | "update-comment" => return .call (.updateComment (← number "comment-id") (← text "comment"))
  | "delete-comment" => return .call (.deleteComment (← number "comment-id"))
  | "add-label" => return .call (.addLabel (← number "issue") (← text "label"))
  | "delete-label" => return .call (.deleteLabel (← number "issue") (← text "label"))
  | "list-artifacts" => return .call (.listArtifacts (← number "run-id"))
  | "download-artifact" =>
    match ← words.path? "output" with
    | some path => return .call (.downloadArtifact (← number "artifact-id") path)
    | none => .error .misuse
  | _ => .error .misuse

/-- Reads a question for help on one of some commands. -/
def readHelp (commands : List String) (arguments : List String) : Except Halt Command :=
  match arguments with
  | [] => .error .helpWanted
  | name :: _ => if commands.contains name then .error .helpWanted else .error .misuse

abbrev Environment := List (String × String)

/-- Reads a command for the interface. What no option says is taken from the environment. -/
def readGitHub (environment : Environment) (arguments : List String) : Except Halt Command := do
  let words ← Words.ofArguments gitHubForm arguments
  let setting (option name : String) : Option String :=
    (words.value? option).or (environment.lookup name)
  let usual := GitHub.usualRepository
  let access : GitHub.Access :=
    { address := (setting "api-url" "GITHUB_API_URL").getD GitHub.usualAddress
      repository :=
        { owner := (setting "owner" "GITHUB_OWNER").getD usual.owner
          name := (setting "repo" "GITHUB_REPO").getD usual.name }
      token := setting "token" "GITHUB_TOKEN" }
  match words.command with
  | none => .error .misuse
  | some ("help", rest) => readHelp gitHubForm.commands rest
  | some (name, rest) => return .gitHub access (← readOperation name rest)

/-- The command that arguments ask for, with the environment for what they leave open. -/
def Command.read (environment : Environment) (arguments : List String) : Except Halt Command := do
  let words ← Words.ofArguments programForm arguments
  match words.command with
  | some ("matrix", rest) => readMatrix rest
  | some ("build-config", rest) => readBuildConfig rest
  | some ("github", rest) => readGitHub environment rest
  | some ("help", rest) => readHelp programForm.commands rest
  | _ => .error .misuse

end WorkflowKit.CommandLine
