import WorkflowKit.Catalog.Basic
import WorkflowKit.Json.Value

namespace WorkflowKit

/-- The object with the entries of a map. -/
def Json.ofMap {α : Type} (write : α → Json) (map : SortedMap α) : Json :=
  .object (map.entries.map fun (name, value) => (name, write value))

def Json.ofOption {α : Type} (write : α → Json) (value : Option α) : Json :=
  (value.map write).getD .null

def Setting.toJson : Setting → Json
  | list entries => .ofTexts entries
  | text value => .text value

def Block.toJson (block : Block) : Json :=
  .object
    [("expanded", .ofOption (.ofMap Setting.toJson) block.expanded),
     ("standard", .ofMap Setting.toJson block.standard)]

def Workflow.toJson (workflow : Workflow) : Json :=
  .object
    [("config", .ofOption Block.toJson workflow.config),
     ("matrix", .ofOption Block.toJson workflow.matrix)]

/-- The type of a device and the attributes that it has. -/
def Device.toJson (device : Device) : Json :=
  let attributes :=
    [("image", device.image), ("model", device.model), ("name", device.name),
     ("type", some device.type.name), ("version", device.version)]
  .object (attributes.filterMap fun (name, value) => value.map fun text => (name, .text text))

def Catalog.toJson (catalog : Catalog) : Json :=
  .object
    [("build_configs", .ofMap .ofTexts catalog.buildConfigs),
     ("default_workflow", .text catalog.defaultWorkflow),
     ("devices", .ofMap Device.toJson catalog.devices),
     ("workflows", .ofMap Workflow.toJson catalog.workflows)]

end WorkflowKit
