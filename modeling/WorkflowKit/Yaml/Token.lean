import WorkflowKit.Yaml.Cursor
import WorkflowKit.Text.Octets

namespace WorkflowKit.Yaml

/-- How a scalar is written. Only plain scalars are read as other values than texts. -/
inductive Style where
  | plain
  | quoted
  | block
  deriving DecidableEq, Repr

inductive TokenKind where
  | streamEnd
  | version (major minor : Nat)
  | tagHandle (handle : List Char) (stem : Octets)
  | documentStart
  | documentEnd
  | blockSequenceStart
  | blockMappingStart
  | blockEnd
  | flowSequenceStart
  | flowSequenceEnd
  | flowMappingStart
  | flowMappingEnd
  | blockEntry
  | flowEntry
  | key
  | value
  | reference (name : List Char)
  | anchor (name : List Char)
  | tag (handle : List Char) (suffix : Octets)
  | scalar (style : Style) (text : List Char)
  deriving DecidableEq, Repr

/-- Holds of the tokens of directives. -/
def TokenKind.isDirective : TokenKind → Bool
  | .version _ _ | .tagHandle _ _ => true
  | _ => false

structure Token where
  kind : TokenKind
  start : Mark
  stop : Mark
  deriving DecidableEq, Repr

end WorkflowKit.Yaml
