import WorkflowKit.Catalog.Parameter
import WorkflowKit.Catalog.Device

namespace WorkflowKit

/-- The parameters of all workflows, the keys of the build configuration of each platform, and the
registered devices. -/
structure Catalog where
  defaultWorkflow : String
  workflows : SortedMap Workflow
  buildConfigs : SortedMap (List String)
  devices : Registry
  deriving DecidableEq

namespace Catalog

/-- The name of the default workflow of a catalog that does not give one. -/
def usualDefault : String := "desktop"

/-- The workflow that is asked when another one does not define a key. -/
def default? (catalog : Catalog) : Option Workflow :=
  catalog.workflows.get? catalog.defaultWorkflow

/-- The keys that make up the build configuration of a platform, in the order of reports. -/
def buildKeys? (catalog : Catalog) (platform : String) : Option (List String) :=
  catalog.buildConfigs.get? platform

def platforms (catalog : Catalog) : List String :=
  catalog.buildConfigs.keys

end Catalog

end WorkflowKit
