import WorkflowKit.Catalog.Reading
import WorkflowKit.Proofs.Yaml.View

namespace WorkflowKit.Catalog

open Yaml (Node)

variable {α : Type}

/-- A map has exactly the names under which a node has parts, and each value is that of the part. -/
structure ShowsMap (Shows : Node → α → Prop) (node : Node) (map : SortedMap α) : Prop where
  isMap : node.entries?.isSome
  texts : ∀ key ∈ node.keys, key.written?.isSome
  kept : ∀ name, ∀ part ∈ node.named name, ∃ value, map.get? name = some value ∧ Shows part value
  only : ∀ name value, map.get? name = some value → ∃ part ∈ node.named name, Shows part value

/-- An optional part is absent if it is missing or null, and else it is as the document shows it. -/
inductive ShowsOptional (Shows : Node → α → Prop) (node : Node) (name : String) : Option α → Prop
  | absent : (∀ part ∈ node.named name, part.meaning? = some .null) →
      ShowsOptional Shows node name none
  | present {part : Node} {value : α} : part ∈ node.named name → ¬ part.isNull →
      Shows part value → ShowsOptional Shows node name (some value)

/-- A part that has a usual value if it is missing. -/
inductive ShowsOr (usual : α) (Shows : Node → α → Prop) (node : Node) (name : String) : α → Prop
  | missing : node.named name = [] → ShowsOr usual Shows node name usual
  | given {part : Node} {value : α} : part ∈ node.named name → Shows part value →
      ShowsOr usual Shows node name value

/-- All keys of a node are names of fields. -/
def Declares (fields : List String) (node : Node) : Prop :=
  ∀ key ∈ node.keys, ∃ name ∈ fields, key.written? = some name

def ShowsText (node : Node) (text : String) : Prop :=
  node.written? = some text

def ShowsTexts (node : Node) (texts : List String) : Prop :=
  ∃ items, node.items? = some items ∧ List.Forall₂ ShowsText items texts

inductive ShowsSetting (node : Node) : Setting → Prop
  | text {text : String} : ShowsText node text → ShowsSetting node (.text text)
  | list {entries : List String} : ShowsTexts node entries → ShowsSetting node (.list entries)

structure ShowsBlock (node : Node) (block : Block) : Prop where
  declared : Declares ["standard", "expanded"] node
  standard : ShowsOr .empty (ShowsMap ShowsSetting) node "standard" block.standard
  expanded : ShowsOptional (ShowsMap ShowsSetting) node "expanded" block.expanded

structure ShowsWorkflow (node : Node) (workflow : Workflow) : Prop where
  declared : Declares ["matrix", "config"] node
  matrix : ShowsOptional ShowsBlock node "matrix" workflow.matrix
  config : ShowsOptional ShowsBlock node "config" workflow.config

/-- The type of a device is named by a text, or by a tag. -/
def ShowsType (node : Node) (type : DeviceType) : Prop :=
  node.written? = some type.name ∨ node.tagName? = some type.name

structure ShowsDevice (node : Node) (device : Device) : Prop where
  declared : Declares deviceFields node
  type : ∃ part ∈ node.named "type", ShowsType part device.type
  model : ShowsOptional ShowsText node "model" device.model
  version : ShowsOptional ShowsText node "version" device.version
  image : ShowsOptional ShowsText node "image" device.image
  name : ShowsOptional ShowsText node "name" device.name

/-- A catalog holds what a document shows. -/
structure ShownBy (document : Node) (catalog : Catalog) : Prop where
  defaultWorkflow : ShowsOr usualDefault ShowsText document "default_workflow"
    catalog.defaultWorkflow
  workflows : ShowsOr .empty (ShowsMap ShowsWorkflow) document "workflows" catalog.workflows
  buildConfigs : ShowsOr .empty (ShowsMap ShowsTexts) document "build_configs"
    catalog.buildConfigs
  devices : ShowsOr .empty (ShowsMap ShowsDevice) document "devices" catalog.devices

/-- The nodes of the workflows in a document. -/
def workflowNodes (document : Node) : List Node :=
  (document.named "workflows").flatMap Node.parts

/-- The nodes of the blocks in a document. -/
def blockNodes (document : Node) : List Node :=
  (workflowNodes document).flatMap Node.parts

/-- Keys are distinct, and workflows and blocks are mappings. A block may also be null. -/
structure Regular (document : Node) : Prop where
  distinct : document.distinctKeys
  workflows : ∀ node ∈ workflowNodes document, node.isMapping
  blocks : ∀ node ∈ blockNodes document, node.isMapping ∨ node.meaning? = some .null

instance (document : Node) : Decidable (Regular document) :=
  decidable_of_iff (document.distinctKeys ∧ (∀ node ∈ workflowNodes document, node.isMapping) ∧
      ∀ node ∈ blockNodes document, node.isMapping ∨ node.meaning? = some .null)
    ⟨fun all => ⟨all.1, all.2.1, all.2.2⟩, fun all => ⟨all.1, all.2, all.3⟩⟩

/-- A workflow or a block has a key that is a number. -/
def NumbersFields (document : Node) : Prop :=
  ∃ node ∈ workflowNodes document ++ blockNodes document, ∃ key ∈ node.keys, key.isNumber

instance (document : Node) : Decidable (NumbersFields document) :=
  inferInstanceAs (Decidable (∃ node ∈ workflowNodes document ++ blockNodes document,
    ∃ key ∈ node.keys, key.isNumber))

theorem integer?_of_isNumber {key : Node} {text : String} (number : key.isNumber)
    (written : key.written? = some text) : ∃ n, Yaml.Scalar.integer? text = some (.natural n) := by
  unfold Node.isNumber at number
  split at number
  · rename_i n found
    obtain ⟨other, seen, means⟩ := Node.means_of_meaning? found
    obtain rfl := Option.some.inj (seen.symm.trans written)
    exact ⟨n, means.integer?_eq⟩
  · cases number

/-- No field is named like a number. -/
theorem Declares.not_isNumber {fields : List String} {node key : Node}
    (declared : Declares fields node)
    (words : ∀ name ∈ fields, Yaml.Scalar.integer? name = none) (member : key ∈ node.keys) :
    ¬ key.isNumber := by
  intro number
  obtain ⟨name, listed, written⟩ := declared key member
  obtain ⟨n, found⟩ := integer?_of_isNumber number written
  rw [words name listed] at found
  cases found

theorem ShowsWorkflow.not_isNumber {node key : Node} {workflow : Workflow}
    (shows : ShowsWorkflow node workflow) (member : key ∈ node.keys) : ¬ key.isNumber :=
  shows.declared.not_isNumber (by decide) member

theorem ShowsBlock.not_isNumber {node key : Node} {block : Block}
    (shows : ShowsBlock node block) (member : key ∈ node.keys) : ¬ key.isNumber :=
  shows.declared.not_isNumber (by decide) member

/-- What a map shows, it shows of each part. -/
theorem ShowsMap.of_mem_parts {Shows : Node → α → Prop} {node part : Node} {map : SortedMap α}
    (shows : ShowsMap Shows node map) (member : part ∈ node.parts) :
    ∃ value, Shows part value := by
  obtain ⟨key, inside, stands⟩ := Node.key_of_mem_parts member
  obtain ⟨name, written⟩ := Option.isSome_iff_exists.mp (shows.texts key inside)
  obtain ⟨value, _, found⟩ := shows.kept name part (stands name written)
  exact ⟨value, found⟩

/-- What a node has under a name is shown, unless it is null. -/
theorem ShowsOptional.of_mem_named {Shows : Node → α → Prop} {node part : Node} {name : String}
    {value : Option α} (shows : ShowsOptional Shows node name value) (distinct : node.distinctKeys)
    (member : part ∈ node.named name) : part.meaning? = some .null ∨ ∃ value, Shows part value := by
  cases shows with
  | absent null => exact Or.inl (null part member)
  | present other _ shown =>
    obtain rfl := Node.eq_of_mem_named distinct member other
    exact Or.inr ⟨_, shown⟩

theorem ShowsOr.of_mem_named {Shows : Node → α → Prop} {node part : Node} {name : String}
    {usual value : α} (shows : ShowsOr usual Shows node name value) (distinct : node.distinctKeys)
    (member : part ∈ node.named name) : Shows part value := by
  cases shows with
  | missing none =>
    rw [none] at member
    cases member
  | given other shown =>
    obtain rfl := Node.eq_of_mem_named distinct member other
    exact shown

theorem distinctKeys_of_mem_workflowNodes {document node : Node}
    (distinct : document.distinctKeys) (member : node ∈ workflowNodes document) :
    node.distinctKeys := by
  obtain ⟨part, inside, member⟩ := List.mem_flatMap.mp member
  exact Node.distinctKeys_of_mem_parts
    (Node.distinctKeys_of_mem_parts distinct (Node.mem_parts_of_mem_named inside)) member

theorem ShownBy.of_mem_workflowNodes {document node : Node} {catalog : Catalog}
    (shown : ShownBy document catalog) (distinct : document.distinctKeys)
    (member : node ∈ workflowNodes document) : ∃ workflow, ShowsWorkflow node workflow := by
  obtain ⟨part, inside, member⟩ := List.mem_flatMap.mp member
  exact (shown.workflows.of_mem_named distinct inside).of_mem_parts member

/-- Each part of a workflow is null or a block, so nothing else is written there. -/
theorem ShowsWorkflow.of_mem_parts {node part : Node} {workflow : Workflow}
    (shows : ShowsWorkflow node workflow) (distinct : node.distinctKeys)
    (member : part ∈ node.parts) : part.meaning? = some .null ∨ ∃ block, ShowsBlock part block := by
  obtain ⟨key, inside, stands⟩ := Node.key_of_mem_parts member
  obtain ⟨name, listed, written⟩ := shows.declared key inside
  rcases List.mem_pair.mp listed with rfl | rfl
  · exact shows.matrix.of_mem_named distinct (stands _ written)
  · exact shows.config.of_mem_named distinct (stands _ written)

/-- A field that is given by its number is not in the catalog as it is written. -/
theorem ShownBy.not_numbersFields {document : Node} {catalog : Catalog}
    (shown : ShownBy document catalog) (distinct : document.distinctKeys) :
    ¬ NumbersFields document := by
  rintro ⟨node, member, key, inside, number⟩
  rcases List.mem_append.mp member with workflow | block
  · obtain ⟨workflow, shows⟩ := shown.of_mem_workflowNodes distinct workflow
    exact shows.not_isNumber inside number
  · obtain ⟨above, aboveMember, part⟩ := List.mem_flatMap.mp block
    obtain ⟨workflow, shows⟩ := shown.of_mem_workflowNodes distinct aboveMember
    rcases shows.of_mem_parts (distinctKeys_of_mem_workflowNodes distinct aboveMember) part with
      null | ⟨block, shows⟩
    · rw [Node.keys_of_meaning? null] at inside
      cases inside
    · exact shows.not_isNumber inside number

end WorkflowKit.Catalog
