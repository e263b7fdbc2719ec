import WorkflowKit.SortedMap
import WorkflowKit.Text.Pieces

namespace WorkflowKit.Changes

/-- What may be found in a path. -/
inductive PathMark where
  | start (text : String)
  | ending (text : String)
  | within (text : String)
  | withinAnyCase (text : String)
  /-- The text occurs as a word between points, slashes and underscores, in letters of either
  case. -/
  | wordAnyCase (text : String)

/-- The letter that a character is compared as when case does not matter. Two characters outside
ASCII count as letters of ASCII. -/
def folded (c : Char) : Char :=
  if c = '\u017F' then 's' else if c = '\u212A' then 'k' else c.toLower

/-- Characters that stand around a word of a path. -/
def isSeparator (c : Char) : Bool :=
  c = '_' || c = '.' || c = '/'

/-- Holds when a word stands between separators. -/
def hasWord (word : List Char) : List Char → Bool
  | [] => false
  | c :: rest =>
    (isSeparator c && word.isPrefixOf (rest.map folded) &&
      (rest.drop word.length).head?.any isSeparator) || hasWord word rest

namespace PathMark

def found (path : List Char) : PathMark → Bool
  | start text => text.toList.isPrefixOf path
  | ending text => text.toList.isSuffixOf path
  | within text => Text.occursIn text.toList path
  | withinAnyCase text => Text.occursIn text.toList (path.map folded)
  | wordAnyCase text => hasWord text.toList path

end PathMark

def ignoredMarks : List PathMark :=
  [.start "external/", .start "release_build_files/", .withinAnyCase "readme"]

/-- The platforms and the marks of their paths. -/
def platformMarks : List (String × List PathMark) :=
  [("Android", [.withinAnyCase "android", .ending ".java", .within "gradle"]),
   ("iOS", [.wordAnyCase "ios", .withinAnyCase "apple", .ending ".mm", .withinAnyCase "xcode",
     .within "Pod"]),
   ("Desktop", [.within "desktop"])]

def hasMark (marks : List PathMark) (path : String) : Bool :=
  marks.any (·.found path.toList)

/-- The requested platforms that a path belongs to. -/
def platformsOf (requested : List String) (path : String) : List String :=
  (platformMarks.filter fun (platform, marks) =>
    requested.contains platform && hasMark marks path).map (·.1)

/-- The requested platforms that the paths belong to, or the first path that belongs to none of them
and needs tests. -/
def selectPlatforms (requested : List String) : List String → Except String (List String)
  | [] => .ok []
  | path :: paths =>
    let platforms := platformsOf requested path
    if platforms.isEmpty && !hasMark ignoredMarks path then .error path
    else (selectPlatforms requested paths).map (platforms ++ ·)

end WorkflowKit.Changes
