import WorkflowKit.SortedMap

namespace WorkflowKit

/-- The kind of a block: matrix values fan out into jobs, config values are passed as they are. -/
inductive Kind where
  | matrix
  | config
  deriving DecidableEq, Repr

namespace Kind

def name : Kind → String
  | matrix => "matrix"
  | config => "config"

def all : List Kind := [matrix, config]

def ofConfigFlag (config : Bool) : Kind :=
  if config then .config else .matrix

end Kind

/-- The value of a parameter. -/
inductive Setting where
  | list (entries : List String)
  | text (value : String)
  deriving DecidableEq, Repr

namespace Setting

def text? : Setting → Option String
  | list _ => none
  | text value => some value

/-- Holds when a setting has the shape that a kind of block asks for. -/
def suits : Setting → Kind → Bool
  | list _, .matrix => true
  | text _, .config => true
  | _, _ => false

end Setting

abbrev Settings := SortedMap Setting

/-- The standard settings of a block, and those that come first when broader coverage is asked. -/
structure Block where
  standard : Settings
  expanded : Option Settings
  deriving DecidableEq

structure Workflow where
  matrix : Option Block
  config : Option Block
  deriving DecidableEq

def Workflow.block (workflow : Workflow) : Kind → Option Block
  | .matrix => workflow.matrix
  | .config => workflow.config

end WorkflowKit
