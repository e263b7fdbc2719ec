import WorkflowKit.CommandLine.Program

open WorkflowKit WorkflowKit.CommandLine

/-- The variables that the program looks at. -/
def environmentNames : List String :=
  [filterVariable, "GITHUB_TOKEN", "GITHUB_OWNER", "GITHUB_REPO", "GITHUB_API_URL"]

def parametersPath? : Command → Option String
  | .matrix _ parameters => parameters
  | .buildConfig _ parameters => parameters
  | .gitHub .. => none

/-- The directory in which the program runs, without any files. -/
def emptyFiles : IO Files := do
  return ⟨Files.names (← IO.currentDir).toString, []⟩

/-- The files that a command line needs, of those that can be read. -/
def neededFiles (environment : Environment) (arguments : List String) : IO Files := do
  let files ← emptyFiles
  match Command.read environment arguments with
  | .error _ => return files
  | .ok command =>
    match parametersPath? command with
    | none => return files
    | some path =>
      try
        let content ← IO.FS.readBinFile path
        return files.place path (.file content.toList)
      catch _ => return files

/-- The command line. Here the program can neither start git nor reach a server. -/
def main (arguments : List String) : IO UInt32 := do
  let environment ← environmentNames.filterMapM fun name => do
    return (← IO.getEnv name).map fun value => (name, value)
  let files ← neededFiles environment arguments
  let completion := program ⟨environment, ⟨none, files⟩, .unreachable⟩ arguments
  (← IO.getStdout).write (ByteArray.mk completion.stdout.toArray)
  for text in completion.told do
    IO.eprintln text
  return UInt32.ofNat completion.status
