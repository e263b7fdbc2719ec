import WorkflowKit.Catalog.Basic
import WorkflowKit.Yaml.Value

namespace WorkflowKit.Catalog

open Yaml (Node Value Fault Step Misfit misfit misfitAt)

def readText : Value → Except Fault String
  | .scalar (.text text) => .ok text
  | value => misfit (.wrongType value.found "a string")

/-- The entries of a mapping with texts as keys. -/
def readMap {α : Type} (read : Value → Except Fault α) : Value → Except Fault (SortedMap α)
  | .mapping entries =>
    (entries.mapM fun (key, value) => do return (← readText key, ← read value)).map .ofList
  | value => misfit (.wrongType value.found "a map")

/-- The value of a parameter: a list of texts, or a text. -/
def readSetting : Value → Except Fault Setting
  | .scalar (.text text) => .ok (.text text)
  | .sequence items =>
    match items.mapM readText with
    | .ok entries => .ok (.list entries)
    | .error _ => misfit (.noAlternative "ParamValue")
  | _ => misfit (.noAlternative "ParamValue")

def readOptional {α : Type} (read : Value → Except Fault α) : Value → Except Fault (Option α)
  | .scalar .null => .ok none
  | value => (read value).map some

/-- Which of two fields a key stands for: its name or its number. -/
def readField (first second : String) : Value → Except Fault Bool
  | .scalar (.text name) =>
    if name = first then .ok true
    else if name = second then .ok false
    else misfit (.unknownField name [first, second])
  | .scalar (.natural n) =>
    if n = 0 then .ok true
    else if n = 1 then .ok false
    else misfit (.wrongValue (.scalar (.natural n)) "field index 0 <= i < 2")
  | value => misfit (.wrongType value.found "field identifier")

/-- The two fields of a structure, from the entries of a mapping. -/
def readFields {α β : Type} (first second : String) (readFirst : Value → Except Fault α)
    (readSecond : Value → Except Fault β) :
    List (Value × Value) → Option α → Option β → Except Fault (Option α × Option β)
  | [], a, b => .ok (a, b)
  | (key, value) :: entries, a, b => do
    if ← readField first second key then
      if a.isSome then misfit (.duplicateField first)
      else readFields first second readFirst readSecond entries (some (← readFirst value)) b
    else
      if b.isSome then misfit (.duplicateField second)
      else readFields first second readFirst readSecond entries a (some (← readSecond value))

/-- The two fields of a structure, from a mapping or in their order from a sequence. -/
def readPair {α β : Type} (name first second : String) (readFirst : Value → Except Fault α)
    (readSecond : Value → Except Fault β) : Value → Except Fault (Option α × Option β)
  | .mapping entries => readFields first second readFirst readSecond entries none none
  | .sequence items => do
    let a ← items[0]?.mapM readFirst
    let b ← items[1]?.mapM readSecond
    if 2 < items.length then misfit (.wrongLength items.length "2 elements in sequence")
    else .ok (a, b)
  | value => misfit (.wrongType value.found name)

def readBlock (value : Value) : Except Fault Block := do
  let (standard, expanded) ←
    readPair "struct ParamBlock" "standard" "expanded" (readMap readSetting)
      (readOptional (readMap readSetting)) value
  .ok ⟨standard.getD .empty, expanded.getD none⟩

def readWorkflow (value : Value) : Except Fault Workflow := do
  let (matrix, config) ←
    readPair "struct WorkflowParameters" "matrix" "config" (readOptional readBlock)
      (readOptional readBlock) value
  .ok ⟨matrix.getD none, config.getD none⟩

/-- The default workflow and all workflows, from the entries at the root. Others are ignored. -/
def readParameters :
    List (String × Value) → Option String → Option (SortedMap Workflow) →
      Except Fault (String × SortedMap Workflow)
  | [], name, workflows => .ok (name.getD usualDefault, workflows.getD .empty)
  | (key, value) :: entries, name, workflows => do
    if key = "default_workflow" then
      if name.isSome then misfit (.duplicateField key)
      else readParameters entries (some (← readText value)) workflows
    else if key = "workflows" then
      if workflows.isSome then misfit (.duplicateField key)
      else readParameters entries name (some (← readMap readWorkflow value))
    else readParameters entries name workflows

def readNodeMap {α : Type} (read : List Step → Node → Except Fault α) (path : List Step)
    (node : Node) : Except Fault (SortedMap α) := do
  let (entries, _) ← node.entries "a map" path
  let read ← entries.mapM fun (key, value) => do
    let (name, _) ← key.text "a string" path
    return (name, ← read (path ++ [key.step]) value)
  .ok (.ofList read)

def readScalars (path : List Step) (node : Node) : Except Fault (List String) := do
  let items ← node.items "a sequence" path
  items.zipIdx.mapM fun (item, n) =>
    (item.text "a string" (path ++ [.index n])).map (·.1)

/-- A device of which some attributes are known, and the attributes seen before. -/
structure DeviceDraft where
  type : Option DeviceType
  attributes : List (String × Option String)

def deviceFields : List String := ["type", "model", "version", "image", "name"]

def readDeviceEntries (path : List Step) :
    List (Node × Node) → DeviceDraft → Except Fault DeviceDraft
  | [], draft => .ok draft
  | (key, value) :: entries, draft => do
    let (name, mark) ← key.text "field identifier" path
    let inner := path ++ [key.step]
    if !deviceFields.contains name then misfitAt path mark (.unknownField name deviceFields)
    else if name = "type" then
      if draft.type.isSome then misfit (.duplicateField name)
      else
        let type ← value.variant (DeviceType.all.map DeviceType.name) inner
        readDeviceEntries path entries { draft with type := DeviceType.ofName? type }
    else if (draft.attributes.lookup name).isSome then misfit (.duplicateField name)
    else
      let text ← value.optionalText inner
      readDeviceEntries path entries
        { draft with attributes := draft.attributes ++ [(name, text)] }

def readDevice (path : List Step) (node : Node) : Except Fault Device := do
  let (entries, mark) ← node.entries "struct TestDevice" path
  (finish (readDeviceEntries path entries ⟨none, []⟩)).mapError (Fault.within path mark)
where
  finish (draft : Except Fault DeviceDraft) : Except Fault Device := do
    let draft ← draft
    let given (name : String) : Option String := (draft.attributes.lookup name).getD none
    match draft.type with
    | some type => .ok ⟨type, given "model", given "version", given "image", given "name"⟩
    | none => misfit (.missingField "type")

/-- What has been read of a document. -/
structure Draft where
  parameters : List (String × Value)
  buildConfigs : Option (SortedMap (List String))
  devices : Option Registry

def readEntries : List (Node × Node) → Draft → Except Fault Draft
  | [], draft => .ok draft
  | (key, node) :: entries, draft => do
    let (name, _) ← key.text "field identifier" []
    if name = "build_configs" then
      if draft.buildConfigs.isSome then misfit (.duplicateField name)
      else
        let configs ← readNodeMap readScalars [key.step] node
        readEntries entries { draft with buildConfigs := some configs }
    else if name = "devices" then
      if draft.devices.isSome then misfit (.duplicateField name)
      else
        let devices ← readNodeMap readDevice [key.step] node
        readEntries entries { draft with devices := some devices }
    else
      let value ← node.value (Node.depthLimit - 1) [key.step]
      readEntries entries { draft with parameters := draft.parameters ++ [(name, value)] }

def ofEntries (entries : List (Node × Node)) : Except Fault Catalog := do
  let draft ← readEntries entries ⟨[], none, none⟩
  let (defaultWorkflow, workflows) ← readParameters draft.parameters none none
  .ok ⟨defaultWorkflow, workflows, draft.buildConfigs.getD .empty, draft.devices.getD .empty⟩

/-- Devices and build configurations keep every scalar as it is written. The parameters of workflows
are read from values, so that a plain number or truth value is refused where a text is wanted. -/
def ofNode (node : Node) : Except Fault Catalog := do
  let (entries, mark) ← node.entries "struct Catalog" []
  (ofEntries entries).mapError (Fault.within [] mark)

/-- The catalog of a text. A text without a document holds an empty one. -/
def ofText (text : String) : Except Fault Catalog :=
  match Node.ofText? text with
  | none => .error .malformed
  | some none => ofEntries []
  | some (some node) => ofNode node

end WorkflowKit.Catalog
