import WorkflowKit.Yaml.Node
import WorkflowKit.Yaml.Fault

namespace WorkflowKit.Yaml

/-- A node with the meanings of its scalars. -/
inductive Value where
  | scalar (value : Scalar)
  | sequence (items : List Value)
  | mapping (entries : List (Value × Value))
  deriving Repr

/-- What stands there, in a message about a wrong type. -/
def Value.found : Value → Found
  | scalar value => .scalar value
  | sequence _ => .sequence
  | mapping _ => .mapping

/-- A misfit at a known place. -/
def misfitAt {α : Type} (path : List Step) (mark : Mark) (what : Misfit) : Except Fault α :=
  .error (.misfit what (some ⟨path, mark⟩))

/-- A misfit that gets its place from the node around it. -/
def misfit {α : Type} (what : Misfit) : Except Fault α :=
  .error (.misfit what none)

/-- The name of a tag that belongs to the application: what follows its exclamation mark, or the
mark itself if it stands alone. -/
def ownTag? (tag : Option Octets) : Option String :=
  match tag with
  | some (b :: rest) =>
    if b ≠ 0x21 then none else if rest.isEmpty then some "!" else Octets.text? rest
  | _ => none

namespace Node

def step : Node → Step
  | scalar _ _ _ text => .key text
  | _ => .unnamed

mutual

/-- The value of a node. Collections are nested to a given depth. -/
def value (depth : Nat) (path : List Step) : Node → Except Fault Value
  | scalar mark tag style text =>
    if (ownTag? tag).isSome then misfitAt path mark .foreignTag
    else
      match Scalar.read tag style text with
      | .error wrong => misfitAt path mark (.wrongValue (.scalar (.text wrong.text)) wrong.wanted)
      | .ok (.wide n signed) =>
        misfitAt path mark (.wrongType (.scalar (.wide n signed)) "any value")
      | .ok meaning => .ok (.scalar meaning)
  | sequence mark tag items =>
    if (ownTag? tag).isSome then misfitAt path mark .foreignTag
    else if depth = 0 then .error (.tooDeep mark)
    else (itemValues (depth - 1) path 0 items).map .sequence
  | mapping mark tag entries =>
    if (ownTag? tag).isSome then misfitAt path mark .foreignTag
    else if depth = 0 then .error (.tooDeep mark)
    else (entryValues (depth - 1) path entries).map .mapping
  | reference none => .error .tooManyAliases
  | reference (some target) => value depth path target

def itemValues (depth : Nat) (path : List Step) (index : Nat) :
    List Node → Except Fault (List Value)
  | [] => .ok []
  | item :: items => do
    let first ← value depth (path ++ [.index index]) item
    let others ← itemValues depth path (index + 1) items
    .ok (first :: others)

def entryValues (depth : Nat) (path : List Step) :
    List (Node × Node) → Except Fault (List (Value × Value))
  | [] => .ok []
  | (name, node) :: entries => do
    let key ← value depth path name
    let first ← value depth (path ++ [name.step]) node
    let others ← entryValues depth path entries
    .ok ((key, first) :: others)

end

/-- The misfit of a scalar where something else is expected. -/
def scalarMisfit (tag : Option Octets) (style : Style) (text expected : String) : Misfit :=
  match Scalar.read tag style text with
  | .error wrong => .wrongValue (.scalar (.text wrong.text)) wrong.wanted
  | .ok meaning => .wrongType (.scalar meaning) expected

/-- The text of a scalar as it is written, and its mark. -/
def text (expected : String) (path : List Step) : Node → Except Fault (String × Mark)
  | scalar mark _ _ text => .ok (text, mark)
  | sequence mark _ _ => misfitAt path mark (.wrongType .sequence expected)
  | mapping mark _ _ => misfitAt path mark (.wrongType .mapping expected)
  | reference none => .error .tooManyAliases
  | reference (some target) => text expected path target

/-- The entries of a mapping, and its mark. A node of which nothing is written is an empty one. -/
def entries (expected : String) (path : List Step) :
    Node → Except Fault (List (Node × Node) × Mark)
  | mapping mark _ entries => .ok (entries, mark)
  | scalar mark tag style text =>
    if text.isEmpty && style = .plain then .ok ([], mark)
    else misfitAt path mark (scalarMisfit tag style text expected)
  | sequence mark _ _ => misfitAt path mark (.wrongType .sequence expected)
  | reference none => .error .tooManyAliases
  | reference (some target) => entries expected path target

/-- The items of a sequence. A node of which nothing is written is an empty one. -/
def items (expected : String) (path : List Step) : Node → Except Fault (List Node)
  | sequence _ _ items => .ok items
  | scalar mark tag style text =>
    if text.isEmpty && style = .plain then .ok []
    else misfitAt path mark (scalarMisfit tag style text expected)
  | mapping mark _ _ => misfitAt path mark (.wrongType .mapping expected)
  | reference none => .error .tooManyAliases
  | reference (some target) => items expected path target

/-- The text of a scalar that may be null. A misfit of a scalar that is tagged as null has no place
of its own. -/
def optionalText (path : List Step) : Node → Except Fault (Option String)
  | scalar _ tag style text =>
    if style ≠ .plain then .ok (some text)
    else
      match tag with
      | none => .ok (if text.isEmpty || Scalar.isNull text then none else some text)
      | some tag =>
        if tag = Scalar.coreTag "null" then
          if Scalar.isNull text then .ok none
          else misfit (.wrongValue (.scalar (.text text)) "null")
        else .ok (some text)
  | sequence mark _ _ => misfitAt path mark (.wrongType .sequence "a string")
  | mapping mark _ _ => misfitAt path mark (.wrongType .mapping "a string")
  | reference none => .error .tooManyAliases
  | reference (some target) => optionalText path target

/-- A name out of a few: the text of a scalar, or a tag of the application on an empty scalar. The
misfit of an unknown tag has no place of its own. -/
def variant (known : List String) (path : List Step) : Node → Except Fault String
  | scalar mark tag style text =>
    match ownTag? tag with
    | some name =>
      if !known.contains name then misfit (.unknownVariant name known)
      else if style = .plain && (text.isEmpty || Scalar.isNull text) then .ok name
      else misfitAt path mark (.wrongValue (.scalar (.text text)) "null")
    | none =>
      if known.contains text then .ok text
      else misfitAt path mark (.unknownVariant text known)
  | sequence mark tag _ => ofCollection mark tag .sequence
  | mapping mark tag _ => ofCollection mark tag .mapping
  | reference none => .error .tooManyAliases
  | reference (some target) => variant known path target
where
  ofCollection (mark : Mark) (tag : Option Octets) (found : Found) : Except Fault String :=
    match ownTag? tag with
    | some name =>
      if known.contains name then misfitAt path mark (.wrongType found "unit")
      else misfit (.unknownVariant name known)
    | none => misfitAt path mark (.wrongType found "a YAML tag starting with '!'")

end Node

end WorkflowKit.Yaml
