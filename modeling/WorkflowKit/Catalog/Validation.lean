import WorkflowKit.Catalog.Basic

namespace WorkflowKit

inductive Offence where
  | defaultUndefined (name : String)
  | defaultWithoutMatrix (name : String)
  | wrongShape (kind : Kind) (key workflow : String)
  deriving DecidableEq, Repr

def Kind.shape : Kind → String
  | .matrix => "a list"
  | .config => "a string"

def Offence.message : Offence → String
  | defaultUndefined name => s!"default workflow '{name}' is not defined"
  | defaultWithoutMatrix name => s!"default workflow '{name}' has no matrix block"
  | wrongShape kind key workflow =>
    s!"{kind.name} parameter '{key}' of workflow '{workflow}' must be {kind.shape}"

namespace Block

/-- The settings of a block, first the standard ones. -/
def settings (block : Block) : List (String × Setting) :=
  block.standard.entries ++ (block.expanded.map SortedMap.entries).getD []

/-- The first key whose value has the wrong shape. -/
def misshapen? (block : Block) (kind : Kind) : Option String :=
  (block.settings.find? fun entry => !entry.2.suits kind).map (·.1)

end Block

namespace Workflow

/-- The first offence in the blocks of a workflow. -/
def offence? (name : String) (workflow : Workflow) : Option Offence :=
  Kind.all.findSome? fun kind =>
    (workflow.block kind).bind fun block =>
      (block.misshapen? kind).map fun key => .wrongShape kind key name

end Workflow

namespace Catalog

/-- The first offence of a catalog. -/
def offence? (catalog : Catalog) : Option Offence :=
  match catalog.default? with
  | none => some (.defaultUndefined catalog.defaultWorkflow)
  | some workflow =>
    if workflow.matrix.isNone then some (.defaultWithoutMatrix catalog.defaultWorkflow)
    else catalog.workflows.entries.findSome? fun (name, workflow) => workflow.offence? name

/-- A catalog is valid if its default workflow is defined and has a matrix block, and if every value
has the shape of its kind of block. An invalid one is told by its first offence. -/
def validate (catalog : Catalog) : Except Offence Unit :=
  match catalog.offence? with
  | some offence => .error offence
  | none => .ok ()

end Catalog

end WorkflowKit
