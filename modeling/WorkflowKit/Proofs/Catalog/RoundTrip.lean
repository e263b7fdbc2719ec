import WorkflowKit.Catalog.Loading
import WorkflowKit.Catalog.Writing
import WorkflowKit.Proofs.Catalog.Shape
import WorkflowKit.Proofs.Except
import WorkflowKit.Proofs.List
import WorkflowKit.Proofs.SortedMap

namespace WorkflowKit

open Yaml (Node Value Fault Mark)

namespace Json

/-- The mark of nodes that have no text. -/
def start : Mark := ⟨0, 0, 0⟩

def plain (text : String) : Node := .scalar start none .plain text

def quoted (text : String) : Node := .scalar start none .quoted text

mutual

/-- The document that a JSON value is. Texts stand in quotes, so that they are texts whatever they
look like. -/
def toNode : Json → Node
  | null => plain "null"
  | bool value => plain (if value then "true" else "false")
  | number value => plain (String.ofList (numberChars value))
  | text value => quoted value
  | array items => .sequence start none (itemNodes items)
  | object members => .mapping start none (memberNodes members)

def itemNodes : List Json → List Node
  | [] => []
  | item :: items => toNode item :: itemNodes items

def memberNodes : List (String × Json) → List (Node × Node)
  | [] => []
  | (name, value) :: members => (quoted name, toNode value) :: memberNodes members

end

theorem itemNodes_eq (items : List Json) : itemNodes items = items.map toNode := by
  induction items with
  | nil => rfl
  | cons item items ih => rw [itemNodes, ih, List.map_cons]

theorem memberNodes_eq (members : List (String × Json)) :
    memberNodes members = members.map fun member => (quoted member.1, toNode member.2) := by
  induction members with
  | nil => rfl
  | cons member members ih => rw [memberNodes, ih, List.map_cons]

/-- A tree has a value as a document, even where only so many levels are left. -/
def Stands (levels : Nat) (json : Json) (value : Value) : Prop :=
  ∀ depth path, levels ≤ depth → json.toNode.value depth path = .ok value

variable {levels : Nat}

theorem quoted_value (text : String) (depth : Nat) (path : List Yaml.Step) :
    (quoted text).value depth path = .ok (.scalar (.text text)) := by
  simp [quoted, Node.value, Yaml.ownTag?, Yaml.Scalar.read]

theorem stands_text (levels : Nat) (text : String) :
    Stands levels (.text text) (.scalar (.text text)) :=
  fun depth path _ => quoted_value text depth path

theorem stands_null (levels : Nat) : Stands levels .null (.scalar .null) := by
  intro depth path _
  rfl

theorem itemValues_itemNodes {items : List Json} {values : List Value}
    (each : List.Forall₂ (Stands levels) items values) {depth : Nat} (enough : levels ≤ depth)
    (path : List Yaml.Step) (index : Nat) :
    Node.itemValues depth path index (itemNodes items) = .ok values := by
  induction each generalizing index with
  | nil => rfl
  | cons first _ ih =>
    rw [itemNodes, Node.itemValues, first _ _ enough, ih]
    rfl

theorem stands_array {items : List Json} {values : List Value}
    (each : List.Forall₂ (Stands levels) items values) :
    Stands (levels + 1) (.array items) (.sequence values) := by
  intro depth path enough
  have positive : depth ≠ 0 := by omega
  have inner := itemValues_itemNodes each (show levels ≤ depth - 1 by omega) path 0
  simp [toNode, Node.value, Yaml.ownTag?, positive, inner, Except.map]

theorem entryValues_memberNodes {members : List (String × Json)} {values : List (Value × Value)}
    (each : List.Forall₂ (fun member entry =>
      entry.1 = .scalar (.text member.1) ∧ Stands levels member.2 entry.2) members values)
    {depth : Nat} (enough : levels ≤ depth) (path : List Yaml.Step) :
    Node.entryValues depth path (memberNodes members) = .ok values := by
  induction each with
  | nil => rfl
  | @cons member entry _ _ first _ ih =>
    obtain ⟨name, json⟩ := member
    obtain ⟨key, value⟩ := entry
    obtain ⟨rfl, stands⟩ := first
    rw [memberNodes, Node.entryValues, quoted_value, stands _ _ enough, ih]
    rfl

theorem stands_object {members : List (String × Json)} {values : List (Value × Value)}
    (each : List.Forall₂ (fun member entry =>
      entry.1 = .scalar (.text member.1) ∧ Stands levels member.2 entry.2) members values) :
    Stands (levels + 1) (.object members) (.mapping values) := by
  intro depth path enough
  have positive : depth ≠ 0 := by omega
  have inner := entryValues_memberNodes each (show levels ≤ depth - 1 by omega) path
  simp [toNode, Node.value, Yaml.ownTag?, positive, inner, Except.map]

end Json

namespace Catalog

variable {α : Type}

/-- What is written as a tree is read back from its value, which is not null. -/
def Decodes (levels : Nat) (read : Value → Except Fault α) (json : Json) (a : α) : Prop :=
  ∃ value, Json.Stands levels json value ∧ value ≠ .scalar .null ∧ read value = .ok a

theorem decodes_setting (setting : Setting) : Decodes 1 readSetting setting.toJson setting := by
  cases setting with
  | text text => exact ⟨_, Json.stands_text 1 text, nofun, rfl⟩
  | list entries =>
    refine ⟨.sequence (entries.map fun text => .scalar (.text text)), Json.stands_array ?_, nofun, ?_⟩
    · rw [List.forall₂_map_left_iff, List.forall₂_map_right_iff, List.forall₂_same]
      exact fun text _ => Json.stands_text 0 text
    · have read : (entries.map fun text => Value.scalar (.text text)).mapM readText =
          .ok entries := by
        rw [Except.mapM_eq_ok_iff, List.forall₂_map_left_iff, List.forall₂_same]
        exact fun text _ => rfl
      simp only [readSetting, read]

/-- A map is read back if each of its values is. -/
theorem decodes_map {levels : Nat} {read : Value → Except Fault α} {write : α → Json}
    (each : ∀ a, Decodes levels read (write a) a) (map : SortedMap α) :
    Decodes (levels + 1) (readMap read) (.ofMap write map) map := by
  choose value stands _ reads using each
  refine ⟨.mapping (map.entries.map fun entry => (.scalar (.text entry.1), value entry.2)),
    Json.stands_object ?_, nofun, ?_⟩
  · rw [List.forall₂_map_left_iff, List.forall₂_map_right_iff, List.forall₂_same]
    exact fun entry _ => ⟨rfl, stands entry.2⟩
  · simp only [readMap]
    refine Except.map_eq_ok_iff.mpr ⟨map.entries, ?_, SortedMap.ofList_entries map⟩
    rw [Except.mapM_eq_ok_iff, List.forall₂_map_left_iff, List.forall₂_same]
    intro entry _
    simp only [readText, reads]
    rfl

theorem readOptional_of_ne_null {read : Value → Except Fault α} {value : Value}
    (present : value ≠ .scalar .null) : readOptional read value = (read value).map some := by
  unfold readOptional
  split
  · exact absurd rfl present
  · rfl

/-- An optional part is null where it is absent. -/
theorem decodes_option {levels : Nat} {read : Value → Except Fault α} {write : α → Json}
    (each : ∀ a, Decodes levels read (write a) a) (option : Option α) :
    ∃ value, Json.Stands levels (.ofOption write option) value ∧
      readOptional read value = .ok option := by
  cases option with
  | none => exact ⟨_, Json.stands_null levels, rfl⟩
  | some a =>
    obtain ⟨value, stands, present, reads⟩ := each a
    exact ⟨value, stands, by rw [readOptional_of_ne_null present, reads]; rfl⟩

/-- A block is read back, whether its expanded part is there, empty or missing. -/
theorem decodes_block (block : Block) : Decodes 3 readBlock block.toJson block := by
  obtain ⟨expanded, standsExpanded, readsExpanded⟩ :=
    decodes_option (decodes_map decodes_setting) block.expanded
  obtain ⟨standard, standsStandard, _, readsStandard⟩ := decodes_map decodes_setting block.standard
  refine ⟨.mapping [(.scalar (.text "expanded"), expanded), (.scalar (.text "standard"), standard)],
    Json.stands_object ?_, nofun, ?_⟩
  · exact .cons ⟨rfl, standsExpanded⟩ (.cons ⟨rfl, standsStandard⟩ .nil)
  · simp [readBlock, readPair, readFields, readField, readsExpanded, readsStandard, bind, Except.bind]

theorem decodes_workflow (workflow : Workflow) :
    Decodes 4 readWorkflow workflow.toJson workflow := by
  obtain ⟨config, standsConfig, readsConfig⟩ := decodes_option decodes_block workflow.config
  obtain ⟨matrix, standsMatrix, readsMatrix⟩ := decodes_option decodes_block workflow.matrix
  refine ⟨.mapping [(.scalar (.text "config"), config), (.scalar (.text "matrix"), matrix)],
    Json.stands_object ?_, nofun, ?_⟩
  · exact .cons ⟨rfl, standsConfig⟩ (.cons ⟨rfl, standsMatrix⟩ .nil)
  · simp [readWorkflow, readPair, readFields, readField, readsConfig, readsMatrix, bind, Except.bind]

/-- Texts are read alike at every place. -/
theorem quoted_text (text expected : String) (path : List Yaml.Step) :
    (Json.quoted text).text expected path = .ok (text, Json.start) := rfl

theorem readScalars_toNode (path : List Yaml.Step) (texts : List String) :
    readScalars path (Json.ofTexts texts).toNode = .ok texts := by
  have inside : readScalars path (Json.ofTexts texts).toNode =
      ((texts.map Json.quoted).zipIdx.mapM fun entry =>
        (entry.1.text "a string" (path ++ [.index entry.2])).map (·.1)) := by
    rw [Json.ofTexts, Json.toNode, Json.itemNodes_eq, List.map_map]
    rfl
  rw [inside, Except.mapM_eq_ok_iff]
  refine (List.forall₂_zipIdx_iff (R := fun item text => item = Json.quoted text) |>.mpr ?_).imp ?_
  · rw [List.forall₂_map_left_iff, List.forall₂_same]
    exact fun _ _ => rfl
  · rintro ⟨item, n⟩ text rfl
    rfl

theorem readNodeMap_toNode {read : List Yaml.Step → Node → Except Fault α} {write : α → Json}
    (each : ∀ path a, read path (write a).toNode = .ok a) (path : List Yaml.Step)
    (map : SortedMap α) : readNodeMap read path (Json.ofMap write map).toNode = .ok map := by
  have entries : (Json.ofMap write map).toNode.entries "a map" path =
      .ok (map.entries.map fun entry => (Json.quoted entry.1, (write entry.2).toNode),
        Json.start) := by
    rw [Json.ofMap, Json.toNode, Json.memberNodes_eq, List.map_map]
    rfl
  rw [readNodeMap, entries]
  refine Except.bind_eq_ok_iff.mpr ⟨_, rfl, Except.bind_eq_ok_iff.mpr ⟨map.entries, ?_, ?_⟩⟩
  · rw [Except.mapM_eq_ok_iff, List.forall₂_map_left_iff, List.forall₂_same]
    intro entry _
    simp only [quoted_text, each]
    rfl
  · rw [SortedMap.ofList_entries]

theorem readDevice_toNode (path : List Yaml.Step) (device : Device) :
    readDevice path device.toJson.toNode = .ok device := by
  obtain ⟨type, model, version, image, name⟩ := device
  -- Each attribute is there or not, and the reader goes through those that are.
  cases type <;> cases model <;> cases version <;> cases image <;> cases name <;> rfl

/-- The tree that is written for a catalog is read back as this catalog. -/
theorem ofNode_toNode (catalog : Catalog) : ofNode catalog.toJson.toNode = .ok catalog := by
  obtain ⟨workflows, stands, _, reads⟩ := decodes_map decodes_workflow catalog.workflows
  let entries : List (Node × Node) :=
    [(Json.quoted "build_configs", (Json.ofMap .ofTexts catalog.buildConfigs).toNode),
     (Json.quoted "default_workflow", Json.quoted catalog.defaultWorkflow),
     (Json.quoted "devices", (Json.ofMap Device.toJson catalog.devices).toNode),
     (Json.quoted "workflows", (Json.ofMap Workflow.toJson catalog.workflows).toNode)]
  have root : catalog.toJson.toNode = .mapping Json.start none entries := rfl
  have configs (path : List Yaml.Step) := readNodeMap_toNode readScalars_toNode path
    catalog.buildConfigs
  have devices (path : List Yaml.Step) := readNodeMap_toNode readDevice_toNode path catalog.devices
  have value (path : List Yaml.Step) := stands (Node.depthLimit - 1) path (by decide)
  have draft : readEntries entries ⟨[], none, none⟩ =
      .ok ⟨[("default_workflow", .scalar (.text catalog.defaultWorkflow)), ("workflows", workflows)],
        some catalog.buildConfigs, some catalog.devices⟩ := by
    simp [entries, readEntries, quoted_text, configs, devices, value, Json.quoted_value, bind,
      Except.bind]
  have parameters : readParameters [("default_workflow", .scalar (.text catalog.defaultWorkflow)),
      ("workflows", workflows)] none none = .ok (catalog.defaultWorkflow, catalog.workflows) := by
    simp [readParameters, readText, reads, bind, Except.bind]
  rw [root]
  simp [ofNode, ofEntries, Node.entries, draft, parameters, bind, Except.bind, Except.mapError]

/-- The tree of a catalog is read as that catalog, whatever is absent, empty or filled in it, and a
catalog that was valid when it was read from a text is valid again. -/
theorem ofNode_toJson (catalog : Catalog) :
    ofNode catalog.toJson.toNode = .ok catalog ∧
      ∀ text, parse text = .ok catalog →
        ∃ decoded, ofNode catalog.toJson.toNode = .ok decoded ∧ decoded.validate = .ok () :=
  ⟨ofNode_toNode catalog, fun _ read => ⟨catalog, ofNode_toNode catalog, validate_of_parse read⟩⟩

theorem ofNode_toJson_desktop :
    let text := "workflows:\n desktop:\n  matrix:\n   standard:\n    os: [a, \"1.10\"]\n" ++
      "   expanded: \x7b\x7d\nbuild_configs:\n Linux: [1.10]\n" ++
      "devices:\n ~: \x7btype: !virtual, name: 8\x7d\n"
    let catalog : Catalog :=
      { defaultWorkflow := "desktop"
        workflows := SortedMap.empty.insert "desktop"
          ⟨some ⟨SortedMap.empty.insert "os" (.list ["a", "1.10"]), some .empty⟩, none⟩
        buildConfigs := SortedMap.empty.insert "Linux" ["1.10"]
        devices := SortedMap.empty.insert "~" ⟨.virtual, none, none, none, some "8"⟩ }
    parse text = .ok catalog ∧
      ∃ decoded, ofNode catalog.toJson.toNode = .ok decoded ∧ decoded.validate = .ok () := by
  intro text catalog
  have read : (parse text).toOption = some catalog := by decide +kernel
  have parsed : parse text = .ok catalog := Except.eq_ok_of_toOption read
  exact ⟨parsed, (ofNode_toJson catalog).2 text parsed⟩

end Catalog

end WorkflowKit
