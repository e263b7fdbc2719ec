import WorkflowKit.Catalog.Builtin
import WorkflowKit.Catalog.Reading
import WorkflowKit.Failure

namespace WorkflowKit.Catalog

/-- Reads a catalog from a text. An invalid one is refused. -/
def parse (text : String) : Except Failure Catalog := do
  let catalog ← (ofText text).mapError .table
  catalog.validate.mapError fun offence => .input (.catalog offence)
  .ok catalog

def load (files : Files) (path : String) : Except Failure Catalog := do
  let text ← (files.readText path).mapError (.file path)
  parse text

/-- The catalog in a file, or that of the program if no file is given. -/
def choose (files : Files) : Option String → Except Failure Catalog
  | some path => load files path
  | none => .ok builtin

end WorkflowKit.Catalog
