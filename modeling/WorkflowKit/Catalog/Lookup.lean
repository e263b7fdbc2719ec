import WorkflowKit.Catalog.Basic
import WorkflowKit.Log

namespace WorkflowKit

/-- What is asked: a key in one kind of block, for a workflow, with or without the expanded
settings. -/
structure Query where
  workflow : String
  key : String
  expanded : Bool
  kind : Kind
  deriving DecidableEq, Repr

/-- Where a value was found. The settings of the workflow come before those of the default workflow,
and in each of them expanded settings come first. -/
inductive Layer where
  | workflowExpanded
  | workflowStandard
  | defaultExpanded
  | defaultStandard
  deriving DecidableEq, Repr

def Layer.label : Layer → String
  | workflowExpanded => "workflow expanded"
  | workflowStandard => "workflow standard"
  | defaultExpanded => "default expanded"
  | defaultStandard => "default standard"

structure Finding where
  layer : Layer
  value : Setting
  deriving DecidableEq, Repr

/-- The settings of a block that a query looks at, each with its layer. -/
def Block.layers (block : Block) (expanded : Bool) (above base : Layer) :
    List (Layer × Settings) :=
  (if expanded then (block.expanded.map fun settings => (above, settings)).toList else []) ++
    [(base, block.standard)]

namespace Catalog

/-- The settings that a query looks at, in their order. -/
def layers (catalog : Catalog) (query : Query) : List (Layer × Settings) :=
  let own :=
    if query.workflow = catalog.defaultWorkflow then none
    else (catalog.workflows.get? query.workflow).bind (·.block query.kind)
  let usual := catalog.default?.bind (·.block query.kind)
  (own.map (·.layers query.expanded .workflowExpanded .workflowStandard)).getD [] ++
    (usual.map (·.layers query.expanded .defaultExpanded .defaultStandard)).getD []

/-- Answers a query, `none` if no settings define the key. -/
def find? (catalog : Catalog) (query : Query) : Option Finding :=
  (catalog.layers query).findSome? fun (layer, settings) =>
    (settings.get? query.key).map fun value => ⟨layer, value⟩

end Catalog

def Query.event (query : Query) (layer : Layer) : Event :=
  let what := s!"{query.kind.name} '{query.key}'"
  ⟨.debug, .lookup,
    s!"resolved {what} for workflow '{query.workflow}' from {layer.label} block"⟩

end WorkflowKit
