import WorkflowKit.CommandLine.Run

namespace WorkflowKit.CommandLine

/-- A character of a log message. Controls that could steer a terminal are written by their
number. -/
def shownChar (c : Char) : List Char :=
  if c = '\x1b' then "\\x1b".toList
  else if c = '\x07' then "\\x07".toList
  else if c = '\x08' then "\\x08".toList
  else if c = '\x0c' then "\\x0c".toList
  else if c = '\x7f' then "\\x7f".toList
  else if 0x80 ≤ c.toNat && c.toNat ≤ 0x9F then
    ['\\', 'u', '\x7b'] ++ Nat.toDigits 16 c.toNat ++ ['\x7d']
  else [c]

def shownEvent (event : Event) : String :=
  event.level.name ++ " " ++ String.ofList (event.message.toList.flatMap shownChar)

/-- The text that a notice is told by, `none` if the filter keeps it back. -/
def told? (filter : LogFilter) : Notice → Option String
  | .event event => if filter.shows event then some (shownEvent event) else none
  | .remark line => some line

/-- The texts that a run tells its user, the failure last. -/
def Run.told (run : Run) (filter : LogFilter) : List String :=
  run.notices.filterMap (told? filter) ++ (run.failure.map Failure.message).toList

def Run.status (run : Run) : Nat :=
  match run.failure with
  | none => 0
  | some .unfitToken => 101
  | some _ => 1

structure Completion where
  status : Nat
  stdout : Octets
  /-- Texts that are told, each followed by a line feed. -/
  told : List String
  gitRuns : List Changes.GitRun
  arrived : List Http.Request
  files : Files

def versionText : String := "gha-tools 0.1.0\n"

def helpText : String :=
  "GitHub workflow matrix and API helpers\n\n" ++
  "Usage: gha-tools <COMMAND>\n\n" ++
  "Commands:\n" ++
  "  matrix        Print the value of a matrix or config parameter as JSON\n" ++
  "  build-config  Print the matrix keys that describe a platform's build configuration\n" ++
  "  github        Call the GitHub REST API\n" ++
  "  help          Print this message or the help of the given subcommand(s)\n\n" ++
  "Options:\n" ++
  "  -h, --help     Print help\n" ++
  "  -V, --version  Print version\n"

def misuseText : String := "For more information, try '--help'."

/-- What comes of a command line that is not carried out. -/
def Halt.completion (surroundings : Surroundings) (halt : Halt) : Completion :=
  let (status, stdout, told) :=
    match halt with
    | misuse => (2, "", [misuseText])
    | helpWanted => (0, helpText, [])
    | versionWanted => (0, versionText, [])
  ⟨status, Octets.ofText stdout, told, [], [], surroundings.workplace.files⟩

/-- The variable that sets which events are shown. -/
def filterVariable : String := "RUST_LOG"

/-- The program as its user sees it. -/
def program (surroundings : Surroundings) (arguments : List String) : Completion :=
  match Command.read surroundings.environment arguments with
  | .error halt => halt.completion surroundings
  | .ok command =>
    let run := command.run surroundings
    let filter := LogFilter.ofSetting (surroundings.environment.lookup filterVariable)
    { status := run.status
      stdout := run.printed
      told := run.told filter
      gitRuns := run.gitRuns
      arrived := run.arrived
      files := run.files }

end WorkflowKit.CommandLine
