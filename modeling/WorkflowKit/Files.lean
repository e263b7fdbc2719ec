import WorkflowKit.Text.Octets
import WorkflowKit.Text.Pieces

namespace WorkflowKit

inductive FileFault where
  | notFound
  | notADirectory
  | isADirectory
  | nameTooLong
  | nulInName
  | illFormed
  | other (text : String)
  deriving DecidableEq, Repr

def FileFault.message : FileFault → String
  | notFound => "No such file or directory (os error 2)"
  | notADirectory => "Not a directory (os error 20)"
  | isADirectory => "Is a directory (os error 21)"
  | nameTooLong => "File name too long (os error 36)"
  | nulInName => "file name contained an unexpected NUL byte"
  | illFormed => "stream did not contain valid UTF-8"
  | other text => text

/-- A place in the tree of files: the names that lead to it from the root. -/
abbrev Location := List String

/-- Where a name leads to from a location. Nothing is above the root. -/
def Location.next (location : Location) (name : String) : Location :=
  if name = "." then location
  else if name = ".." then location.dropLast
  else location ++ [name]

/-- What stands at a location. -/
inductive Entry where
  | file (content : Octets)
  | directory
  deriving DecidableEq, Repr

/-- The directory in which the program runs, and what there is besides the directories above it. -/
structure Files where
  workingDirectory : Location
  entries : List (Location × Entry)
  deriving DecidableEq, Repr

namespace Files

/-- No files, and the root as the working directory. -/
def empty : Files := ⟨[], []⟩

/-- What stands at a location. The working directory and the directories above it are always there. -/
def get? (files : Files) (location : Location) : Option Entry :=
  if location.isPrefixOf files.workingDirectory then some .directory
  else files.entries.lookup location

def set (files : Files) (location : Location) (entry : Entry) : Files :=
  { files with
    entries :=
      if (files.entries.lookup location).isSome then
        files.entries.map fun (key, old) => (key, if key = location then entry else old)
      else files.entries ++ [(location, entry)] }

def nameLimit : Nat := 255

def pathLimit : Nat := 4095

/-- The names in a path, which stand between its slashes. -/
def names (path : String) : List String :=
  (Text.pieces '/' path).filter (· ≠ "")

/-- Holds of a path with a slash at its end, which calls for a directory. -/
def isClosed (path : String) : Bool :=
  path.toList.getLast? = some '/'

/-- Where the names in a path start from. -/
def start (files : Files) (path : String) : Location :=
  if path.toList.head? = some '/' then [] else files.workingDirectory

/-- Holds of a location that is a directory; otherwise says why not. -/
def checkDirectory (files : Files) (location : Location) : Except FileFault Unit :=
  match files.get? location with
  | some .directory => .ok ()
  | some (.file _) => .error .notADirectory
  | none => .error .notFound

/-- Follows names from a location. There must be directories on the way. -/
def walk (files : Files) : Location → List String → Except FileFault Location
  | location, [] => .ok location
  | location, name :: names => do
    files.checkDirectory location
    if nameLimit < name.utf8ByteSize then .error .nameTooLong
    else files.walk (location.next name) names

/-- Follows names from where a path starts, if the path can be handed to the system. -/
def follow (files : Files) (path : String) (names : List String) : Except FileFault Location :=
  if path.toList.contains '\x00' then .error .nulInName
  else if path.isEmpty then .error .notFound
  else if pathLimit < path.utf8ByteSize then .error .nameTooLong
  else files.walk (files.start path) names

/-- The location that a path leads to. What a closed path leads to must be a directory, as if the
path had the name of the directory itself at its end. -/
def locate (files : Files) (path : String) : Except FileFault Location :=
  files.follow path (if isClosed path then names path ++ ["."] else names path)

def read (files : Files) (path : String) : Except FileFault Octets := do
  let location ← files.locate path
  match files.get? location with
  | some (.file content) => .ok content
  | some .directory => .error .isADirectory
  | none => .error .notFound

def readText (files : Files) (path : String) : Except FileFault String := do
  let content ← files.read path
  match content.text? with
  | some text => .ok text
  | none => .error .illFormed

/-- The location of the file that is written at a path, which need not be there. A closed path names
no file, whatever it leads to. -/
def target (files : Files) (path : String) : Except FileFault Location := do
  let location ← files.follow path (names path)
  if isClosed path then .error .isADirectory
  else
    match files.get? location with
    | some .directory => .error .isADirectory
    | _ => .ok location

/-- Sets the content of the file at a path, which is made if it is not there. -/
def write (files : Files) (path : String) (content : Octets) : Except FileFault Files :=
  (files.target path).map fun location => files.set location (.file content)

def directory (files : Files) (path : String) : Except FileFault Location := do
  let location ← files.locate path
  files.checkDirectory location
  .ok location

def makeDirectory (files : Files) (location : Location) : Files :=
  match files.get? location with
  | none => files.set location .directory
  | some _ => files

/-- Puts an entry where names lead to from a location, and makes the directories on the way. -/
def placeFrom (files : Files) (entry : Entry) : Location → List String → Files
  | location, [] => files.set location entry
  | location, name :: names =>
    (files.makeDirectory location).placeFrom entry (location.next name) names

/-- Puts an entry where a path leads to. -/
def place (files : Files) (path : String) (entry : Entry) : Files :=
  files.placeFrom entry (files.start path) (names path)

end Files

end WorkflowKit
