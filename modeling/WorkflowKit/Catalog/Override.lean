import WorkflowKit.Catalog.Parameter
import WorkflowKit.Text.Pieces

namespace WorkflowKit

/-- The value that a text gives: for a matrix a list with commas between the entries, for a config
the text as it is. -/
def Setting.given (raw : String) : Kind → Setting
  | .matrix => .list (Text.pieces ',' raw)
  | .config => .text raw

end WorkflowKit
