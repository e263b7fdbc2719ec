import WorkflowKit.Yaml.Scalar

namespace WorkflowKit.Yaml

/-- What stands where something else was expected. -/
inductive Found where
  | scalar (value : Scalar)
  | sequence
  | mapping
  deriving DecidableEq, Repr

def Float.written : Float → String
  | .finite value => String.ofList value.positional
  | .infinite negative => if negative then "-inf" else "inf"
  | .nan => "NaN"

def Found.describe : Found → String
  | scalar .null => "unit value"
  | scalar (.bool value) => if value then "boolean `true`" else "boolean `false`"
  | scalar (.natural value) => s!"integer `{value}`"
  | scalar (.signed value) => s!"integer `{value}`"
  | scalar (.wide value signed) => s!"integer `{value}` as " ++ if signed then "i128" else "u128"
  | scalar (.float value) => s!"floating point `{value.written}`"
  | scalar (.text value) => "string " ++ Text.quoted value
  | sequence => "sequence"
  | mapping => "map"

/-- A node that does not fit what it is read as. -/
inductive Misfit where
  | wrongType (found : Found) (expected : String)
  | wrongValue (found : Found) (expected : String)
  | wrongLength (length : Nat) (expected : String)
  | unknownVariant (name : String) (known : List String)
  | unknownField (name : String) (known : List String)
  | missingField (name : String)
  | duplicateField (name : String)
  | foreignTag
  | noAlternative (type : String)
  deriving DecidableEq, Repr

/-- A list of names that are possible. -/
def oneOf (names : List String) : String :=
  match names.map fun name => s!"`{name}`" with
  | [a, b] => a ++ " or " ++ b
  | [a] => a
  | quoted => "one of " ++ ", ".intercalate quoted

def Misfit.message : Misfit → String
  | wrongType found expected => s!"invalid type: {found.describe}, expected {expected}"
  | wrongValue found expected => s!"invalid value: {found.describe}, expected {expected}"
  | wrongLength length expected => s!"invalid length {length}, expected {expected}"
  | unknownVariant name known => s!"unknown variant `{name}`, expected {oneOf known}"
  | unknownField name known => s!"unknown field `{name}`, expected {oneOf known}"
  | missingField name => s!"missing field `{name}`"
  | duplicateField name => s!"duplicate field `{name}`"
  | foreignTag => "untagged and internally tagged enums do not support enum input"
  | noAlternative type => s!"data did not match any variant of untagged enum {type}"

inductive Step where
  | key (name : String)
  | unnamed
  | index (n : Nat)
  deriving DecidableEq, Repr

/-- What stands before a name on a way: nothing at the root, else the way and a dot. -/
def stem : Option String → String
  | none => ""
  | some way => way ++ "."

/-- The way to a node, written with dots and brackets. The root alone is a dot. -/
def pathText (path : List Step) : String :=
  let way := path.foldl (fun way step =>
    match step with
    | .key name => some (stem way ++ name)
    | .unnamed => some (stem way ++ "?")
    | .index n => some (way.getD "." ++ s!"[{n}]")) none
  way.getD "."

structure Place where
  path : List Step
  mark : Mark
  deriving DecidableEq, Repr

/-- The position as a reader counts it; the very start of a text is not told. -/
def Mark.suffix (mark : Mark) : String :=
  if mark.line = 0 ∧ mark.column = 0 then ""
  else s!" at line {mark.line + 1} column {mark.column + 1}"

/-- What is wrong with a document, and where. -/
inductive Fault where
  | malformed
  | misfit (what : Misfit) (place : Option Place)
  | tooDeep (mark : Mark)
  | tooManyAliases
  deriving DecidableEq, Repr

namespace Fault

/-- Gives a misfit its place, unless it has one already. -/
def within (path : List Step) (mark : Mark) : Fault → Fault
  | misfit what none => misfit what (some ⟨path, mark⟩)
  | fault => fault

def message : Fault → String
  | malformed => "malformed document"
  | misfit what none => what.message
  | misfit what (some ⟨path, mark⟩) =>
    let way := pathText path
    (if way = "." then "" else way ++ ": ") ++ what.message ++ mark.suffix
  | tooDeep mark => "recursion limit exceeded" ++ mark.suffix
  | tooManyAliases => "repetition limit exceeded"

end Fault

end WorkflowKit.Yaml
