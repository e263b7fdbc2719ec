import WorkflowKit.SortedMap
import WorkflowKit.Text.Blank

namespace WorkflowKit

inductive DeviceType where
  | real
  | virtual
  deriving DecidableEq, Repr

namespace DeviceType

def name : DeviceType → String
  | real => "real"
  | virtual => "virtual"

def all : List DeviceType := [real, virtual]

def ofName? (name : String) : Option DeviceType :=
  if name = "real" then some real else if name = "virtual" then some virtual else none

end DeviceType

/-- A registered device. Which attributes it has depends on its maker. -/
structure Device where
  type : DeviceType
  model : Option String
  version : Option String
  image : Option String
  name : Option String
  deriving DecidableEq, Repr

abbrev Registry := SortedMap Device

end WorkflowKit
