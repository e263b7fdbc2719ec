import WorkflowKit.Catalog.Device
import WorkflowKit.Text.Pieces
import WorkflowKit.Log

namespace WorkflowKit

namespace DeviceType

/-- The type with a name, or the name without blanks at its ends if there is no such type. -/
def parse (name : String) : Except String DeviceType :=
  let bare := Text.trim name
  match ofName? bare with
  | some type => .ok type
  | none => .error bare

/-- The types that a list between commas names, each once, or the first name of no type. Blank
entries are passed over. -/
def parseList (names : String) : Except String (List DeviceType) := do
  let entries := ((Text.pieces ',' names).map Text.trim).filter (· ≠ "")
  entries.foldlM (fun types entry => do
    let type ← parse entry
    return if types.contains type then types else types ++ [type]) []

end DeviceType

namespace Registry

/-- Devices that were kept, and identifiers that are not registered. -/
structure Selection where
  kept : List String
  unregistered : List String
  deriving DecidableEq, Repr

/-- Keeps the devices with one of the given types, in their order. -/
def select (registry : Registry) (types : List DeviceType) (ids : List String) : Selection where
  kept := ids.filter fun id => (registry.get? id).any fun device => types.contains device.type
  unregistered := ids.filter fun id => (registry.get? id).isNone

def Selection.events (selection : Selection) : List Event :=
  selection.unregistered.map fun id => ⟨.warn, .devices, s!"dropping unregistered test device {id}"⟩

end Registry

end WorkflowKit
