import WorkflowKit.Changes.Apis
import WorkflowKit.Changes.Platforms
import WorkflowKit.Catalog.Parameter
import WorkflowKit.Log

namespace WorkflowKit.Changes

/-- The key of the interfaces under test, a text with commas. -/
def apisKey : String := "apis"

/-- The key of the platforms under test, a list. -/
def platformKey : String := "platform"

/-- A value after narrowing. -/
inductive Outcome where
  /-- All paths were known, and the value is what they call for. -/
  | autodetected (value : Setting)
  /-- A path was unknown, and the value is all that was requested. -/
  | defaulted (value : Setting)
  /-- The value is not one that is narrowed. -/
  | untouched (value : Setting)
  deriving DecidableEq, Repr

namespace Outcome

def value : Outcome → Setting
  | autodetected value => value
  | defaulted value => value
  | untouched value => value

/-- What a remark calls the values of a key. -/
def subject? (key : String) : Option String :=
  if key = apisKey then some "APIs"
  else if key = platformKey then some "platforms"
  else none

/-- A value in a remark: a text, or the entries of a list with commas. -/
def shown : Setting → String
  | .list entries => Text.joined ',' entries
  | .text value => value

/-- The line that tells a reader of the run about an outcome. A narrowed value is a warning. -/
def remark (key : String) (outcome : Outcome) : Option String :=
  (subject? key).bind fun subject =>
    match outcome with
    | autodetected value => some s!"::warning::Autodetected {subject}: {shown value}"
    | defaulted value => some s!"Defaulting to all {subject}: {shown value}"
    | untouched _ => none

end Outcome

/-- A path that no rule knows ends the narrowing, and all that was requested is tested. -/
def narrowApis (requested : String) (paths : List String) : Outcome × List Event :=
  match selectApis (Text.pieces ',' requested) paths with
  | .ok selected => (.autodetected (.text (Text.joined ',' (sortedDistinct selected))), [])
  | .error path =>
    (.defaulted (.text requested),
      [⟨.debug, .changes, s!"{path} is outside the requested API directories"⟩])

def narrowPlatforms (requested paths : List String) : Outcome × List Event :=
  match selectPlatforms requested paths with
  | .ok selected => (.autodetected (.list (sortedDistinct selected)), [])
  | .error path =>
    (.defaulted (.list (sortedDistinct requested)),
      [⟨.debug, .changes, s!"{path} matches no platform rule"⟩])

/-- Narrows the value of a key to what changed paths call for. Empty paths do not count. -/
def narrow (key : String) (value : Setting) (changed : List String) : Outcome × List Event :=
  let paths := changed.filter (· ≠ "")
  if key = apisKey then
    match value with
    | .text requested => narrowApis requested paths
    | .list _ => unexpected
  else if key = platformKey then
    match value with
    | .list requested => narrowPlatforms requested paths
    | .text _ => unexpected
  else (.untouched value, [])
where
  unexpected : Outcome × List Event :=
    (.untouched value,
      [⟨.warn, .changes, s!"{key} value has an unexpected shape, skipping diff filter"⟩])

end WorkflowKit.Changes
