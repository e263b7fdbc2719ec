import WorkflowKit.SortedMap
import WorkflowKit.Text.Pieces

namespace WorkflowKit.Changes

/-- Directories in which changes need no tests. -/
def ignoredDirectories : List String := ["external", "release_build_files"]

/-- Interfaces that are tested as well when the given one has changed. -/
def dependents (directory : String) : List String :=
  if directory = "auth" then ["auth", "functions", "database", "firestore", "storage"] else []

/-- The directory of a path at the top, the whole path if it is in none. -/
def topDirectory (path : String) : String :=
  String.ofList (path.toList.takeWhile (· ≠ '/'))

/-- Names between commas, or the first path of an unknown directory. -/
def selectApis (requested : List String) : List String → Except String (List String)
  | [] => .ok []
  | path :: paths =>
    let directory := topDirectory path
    if ignoredDirectories.contains directory then selectApis requested paths
    else if requested.contains directory then
      (selectApis requested paths).map (dependents directory ++ directory :: ·)
    else .error path

end WorkflowKit.Changes
