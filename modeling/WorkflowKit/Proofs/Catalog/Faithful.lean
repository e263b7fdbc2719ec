import WorkflowKit.Proofs.Catalog.Parameters
import WorkflowKit.Catalog.Loading

namespace WorkflowKit.Catalog

open Yaml (Node Value Fault Step)

variable {α : Type} {Shows : Node → α → Prop} {node : Node} {path : List Step}

/-- A mapping that is read node by node shows its map if each of its parts shows what is read of
it. -/
theorem showsMap_of_readNodeMap {read : List Step → Node → Except Fault α} {map : SortedMap α}
    (distinct : node.distinctKeys)
    (parts : ∀ part ∈ node.parts, ∀ path a, read path part = .ok a → Shows part a)
    (found : readNodeMap read path node = .ok map) : ShowsMap Shows node map := by
  obtain ⟨⟨entries, mark⟩, inside, found⟩ := Except.bind_eq_ok_iff.mp found
  obtain ⟨pairs, each, found⟩ := Except.bind_eq_ok_iff.mp found
  obtain rfl := Except.ok.inj found
  have seen := Node.entries?_of_entries inside
  have part : ∀ entry ∈ entries, entry.2 ∈ node.parts := fun entry member =>
    (Node.mem_parts_iff seen).mpr ⟨entry, member, rfl⟩
  have related := (List.forall₂_and_left _ _).mpr ⟨part, Except.mapM_eq_ok_iff.mp each⟩
  refine showsMap_ofList distinct seen (related.imp fun entry pair both => ?_)
  obtain ⟨inside, one⟩ := both
  obtain ⟨⟨name, mark⟩, key, one⟩ := Except.bind_eq_ok_iff.mp one
  obtain ⟨a, value, one⟩ := Except.bind_eq_ok_iff.mp one
  obtain rfl := Except.ok.inj one
  exact ⟨Node.written?_of_text key, parts entry.2 inside _ _ value⟩

theorem showsTexts_of_readScalars {texts : List String}
    (read : readScalars path node = .ok texts) : ShowsTexts node texts := by
  obtain ⟨items, inside, read⟩ := Except.bind_eq_ok_iff.mp read
  refine ⟨items, Node.items?_of_items inside, List.forall₂_zipIdx_iff.mp ?_⟩
  refine (Except.mapM_eq_ok_iff.mp read).imp fun item text one => ?_
  obtain ⟨⟨written, mark⟩, found, rfl⟩ := Except.map_eq_ok_iff.mp one
  exact Node.written?_of_text found

theorem showsGiven_of_optionalText {text : Option String}
    (read : node.optionalText path = .ok text) : ShowsGiven ShowsText node text := by
  obtain ⟨written, rfl⟩ := Node.optionalText_eq read
  obtain ⟨text, seen⟩ := Option.isSome_iff_exists.mp written
  by_cases null : node.isNull
  · rw [if_pos null]
    exact Node.meaning?_of_isNull null
  · rw [if_neg null, seen]
    exact ⟨null, seen⟩

theorem ofName?_of_mem {name : String} (listed : name ∈ DeviceType.all.map DeviceType.name) :
    ∃ type, DeviceType.ofName? name = some type ∧ type.name = name := by
  obtain ⟨type, _, rfl⟩ := List.mem_map.mp listed
  cases type
  · exact ⟨.real, rfl, rfl⟩
  · exact ⟨.virtual, rfl, rfl⟩

theorem showsType_of_variant {name : String}
    (read : node.variant (DeviceType.all.map DeviceType.name) path = .ok name) :
    ∃ type, DeviceType.ofName? name = some type ∧ ShowsType node type := by
  obtain ⟨listed, shown⟩ := Node.variant_eq_ok read
  obtain ⟨type, found, rfl⟩ := ofName?_of_mem listed
  exact ⟨type, found, shown⟩

/-- The entries of a device name its fields, and each of these is read at most once. -/
theorem once_of_readDeviceEntries {entries : List (Node × Node)} {draft draft' : DeviceDraft}
    (read : readDeviceEntries path entries draft = .ok draft') :
    (∀ entry ∈ entries, ∃ name ∈ deviceFields, entry.1.written? = some name) ∧
      Once (fun key => key.written? = some "type") ShowsType entries draft.type draft'.type ∧
      ∀ name, name ≠ "type" → Once (fun key => key.written? = some name) (ShowsGiven ShowsText)
        entries (draft.attributes.lookup name) (draft'.attributes.lookup name) := by
  induction entries generalizing draft with
  | nil =>
    obtain rfl := Except.ok.inj read
    exact ⟨List.forall_mem_nil _, .kept (List.forall_mem_nil _),
      fun _ _ => .kept (List.forall_mem_nil _)⟩
  | cons entry entries ih =>
    obtain ⟨key, value⟩ := entry
    rw [readDeviceEntries] at read
    obtain ⟨⟨name, mark⟩, text, read⟩ := Except.bind_eq_ok_iff.mp read
    have written := Node.written?_of_text text
    dsimp only at read
    split at read
    · cases read
    · rename_i known
      have listed : name ∈ deviceFields := by simpa using known
      split at read
      · rename_i same
        subst same
        split at read
        · cases read
        · rename_i fresh
          obtain ⟨found, variant, read⟩ := Except.bind_eq_ok_iff.mp read
          obtain ⟨type, named, shows⟩ := showsType_of_variant variant
          obtain ⟨fields, types, attributes⟩ := ih read
          rw [named] at types
          rw [Option.not_isSome_iff_eq_none.mp fresh]
          refine ⟨List.forall_mem_cons.mpr ⟨⟨_, listed, written⟩, fields⟩,
            types.take written shows, fun other different => (attributes other different).skip ?_⟩
          simpa [written] using different.symm
      · rename_i notType
        split at read
        · cases read
        · rename_i fresh
          obtain ⟨found, optional, read⟩ := Except.bind_eq_ok_iff.mp read
          obtain ⟨fields, types, attributes⟩ := ih read
          refine ⟨List.forall_mem_cons.mpr ⟨⟨_, listed, written⟩, fields⟩,
            types.skip (by simpa [written] using notType), fun other different => ?_⟩
          have rest := attributes other different
          rw [List.lookup_append] at rest
          by_cases same : other = name
          · subst same
            rw [Option.not_isSome_iff_eq_none.mp fresh] at rest ⊢
            exact Once.take written (showsGiven_of_optionalText optional) (by simpa using rest)
          · refine Once.skip (by simpa [written] using Ne.symm same) ?_
            simpa [SortedMap.lookup_cons_of_ne same] using rest

/-- A device has the fields that are written, and no others. -/
theorem showsDevice_of_readDevice {device : Device} (distinct : node.distinctKeys)
    (read : readDevice path node = .ok device) : ShowsDevice node device := by
  obtain ⟨⟨entries, mark⟩, inside, read⟩ := Except.bind_eq_ok_iff.mp read
  have seen := Node.entries?_of_entries inside
  obtain ⟨draft, found, read⟩ := Except.bind_eq_ok_iff.mp (Except.mapError_eq_ok_iff.mp read)
  obtain ⟨fields, types, attributes⟩ := once_of_readDeviceEntries found
  have optional : ∀ name, name ≠ "type" →
      ShowsOptional ShowsText node name ((draft.attributes.lookup name).getD none) :=
    fun name different => showsOptional_of_once distinct seen (attributes name different)
  dsimp only at read
  split at read
  · rename_i type given
    obtain rfl := Except.ok.inj read
    refine ⟨fun key member => ?_, ?_, optional "model" (by decide), optional "version" (by decide),
      optional "image" (by decide), optional "name" (by decide)⟩
    · obtain ⟨entry, inside, rfl⟩ := (Node.mem_keys_iff seen).mp member
      exact fields entry inside
    · rw [given] at types
      cases types with
      | taken member own shows =>
        exact ⟨_, (Node.mem_named_iff seen).mpr ⟨_, member, own, rfl⟩, shows⟩
  · cases read

/-- Holds of the entries whose values are kept for the parameters. -/
def ofParameter (entry : Node × Node) : Bool :=
  entry.1.written? ≠ some "build_configs" && entry.1.written? ≠ some "devices"

/-- Build configurations and devices are read at most once, and the values of all other entries are
kept in their order. -/
theorem once_of_readEntries {entries : List (Node × Node)} {draft draft' : Draft}
    (read : readEntries entries draft = .ok draft') :
    Once (fun key => key.written? = some "build_configs")
        (fun part configs => ∃ path, readNodeMap readScalars path part = .ok configs)
        entries draft.buildConfigs draft'.buildConfigs ∧
      Once (fun key => key.written? = some "devices")
        (fun part devices => ∃ path, readNodeMap readDevice path part = .ok devices)
        entries draft.devices draft'.devices ∧
      ∃ later, draft'.parameters = draft.parameters ++ later ∧
        List.Forall₂ (fun entry parameter => entry.1.written? = some parameter.1 ∧
          entry.2.Reads parameter.2) (entries.filter ofParameter) later := by
  induction entries generalizing draft with
  | nil =>
    obtain rfl := Except.ok.inj read
    exact ⟨.kept (List.forall_mem_nil _), .kept (List.forall_mem_nil _), [],
      (List.append_nil _).symm, .nil⟩
  | cons entry entries ih =>
    obtain ⟨key, part⟩ := entry
    rw [readEntries] at read
    obtain ⟨⟨name, mark⟩, text, read⟩ := Except.bind_eq_ok_iff.mp read
    have written := Node.written?_of_text text
    dsimp only at read
    -- The key is one of the two names, or that of a parameter. Names that come again are refused.
    split at read
    · rename_i same
      subst same
      split at read
      · cases read
      · rename_i fresh
        obtain ⟨found, configs, read⟩ := Except.bind_eq_ok_iff.mp read
        obtain ⟨first, second, later, parameters, related⟩ := ih read
        rw [Option.not_isSome_iff_eq_none.mp fresh]
        refine ⟨first.take written ⟨_, configs⟩, second.skip (by simp [written]), later, parameters, ?_⟩
        rwa [List.filter_cons_of_neg (by simp [ofParameter, written])]
    · rename_i notConfigs
      split at read
      · rename_i same
        subst same
        split at read
        · cases read
        · rename_i fresh
          obtain ⟨found, devices, read⟩ := Except.bind_eq_ok_iff.mp read
          obtain ⟨first, second, later, parameters, related⟩ := ih read
          rw [Option.not_isSome_iff_eq_none.mp fresh]
          refine ⟨first.skip (by simp [written]), second.take written ⟨_, devices⟩, later, parameters, ?_⟩
          rwa [List.filter_cons_of_neg (by simp [ofParameter, written])]
      · rename_i notDevices
        obtain ⟨value, found, read⟩ := Except.bind_eq_ok_iff.mp read
        obtain ⟨first, second, later, parameters, related⟩ := ih read
        refine ⟨first.skip (by simpa [written] using notConfigs),
          second.skip (by simpa [written] using notDevices), (name, value) :: later, ?_, ?_⟩
        · simpa using parameters
        · rw [List.filter_cons_of_pos (by simp [ofParameter, written, notConfigs, notDevices])]
          exact .cons ⟨written, _, _, found⟩ related

/-- What is read of the parameters in some entries is read of the entries themselves. -/
theorem once_of_parameters {name : String} {read : Value → α → Prop} {Shows : Node → α → Prop}
    {entries : List (Node × Node)} {parameters : List (String × Value)} {found : Option α}
    (related : List.Forall₂ (fun entry parameter => entry.1.written? = some parameter.1 ∧
      entry.2.Reads parameter.2) (entries.filter ofParameter) parameters)
    (other : name ≠ "build_configs" ∧ name ≠ "devices")
    (shows : ∀ entry ∈ entries, entry.1.written? = some name → ∀ value a, entry.2.Reads value →
      read value a → Shows entry.2 a)
    (once : Once (· = name) read parameters none found) :
    Once (fun key => key.written? = some name) Shows entries none found := by
  have filtered : Once (fun key => key.written? = some name) Shows (entries.filter ofParameter)
      none found := by
    refine once.transfer related (fun entry _ parameter _ both => ?_)
      fun entry member own parameter both a =>
        shows entry (List.mem_filter.mp member).1 own parameter.2 a both.2
    rw [both.1, Option.some.injEq]
  exact filtered.of_filter fun entry own => by simp [ofParameter, own, other]

/-- The workflows that are read of the values of a document are those that its nodes show. -/
theorem showsWorkflows_of_readMap {document part : Node} {value : Value}
    {workflows : SortedMap Workflow} (regular : Regular document)
    (words : ¬ NumbersFields document) (above : part ∈ document.named "workflows")
    (reads : part.Reads value) (read : readMap readWorkflow value = .ok workflows) :
    ShowsMap ShowsWorkflow part workflows := by
  have distinct :=
    Node.distinctKeys_of_mem_parts regular.distinct (Node.mem_parts_of_mem_named above)
  refine showsMap_of_readMap distinct reads (fun node inside value workflow reads found => ?_) read
  have workflowNode : node ∈ workflowNodes document := List.mem_flatMap.mpr ⟨part, above, inside⟩
  have blockNode : ∀ block ∈ node.parts, block ∈ blockNodes document := fun block member =>
    List.mem_flatMap.mpr ⟨node, workflowNode, member⟩
  have noNumber : ∀ key ∈ node.keys, ¬ key.isNumber := fun key member number =>
    words ⟨node, List.mem_append_left _ workflowNode, key, member, number⟩
  have noBlockNumber : ∀ block ∈ node.parts, ∀ key ∈ block.keys, ¬ key.isNumber :=
    fun block member key inside number =>
      words ⟨block, List.mem_append_right _ (blockNode block member), key, inside, number⟩
  exact showsWorkflow_of_readWorkflow (Node.distinctKeys_of_mem_parts distinct inside)
    (regular.workflows node workflowNode) noNumber
    (fun block member => regular.blocks block (blockNode block member)) noBlockNumber reads found

/-- A catalog that is read of a document without numbered fields holds what the document shows. -/
theorem shownBy_of_ofNode {document : Node} {catalog : Catalog} (regular : Regular document)
    (words : ¬ NumbersFields document) (read : ofNode document = .ok catalog) :
    ShownBy document catalog := by
  obtain ⟨⟨entries, mark⟩, inside, read⟩ := Except.bind_eq_ok_iff.mp read
  have seen := Node.entries?_of_entries inside
  obtain ⟨draft, drafted, read⟩ := Except.bind_eq_ok_iff.mp (Except.mapError_eq_ok_iff.mp read)
  obtain ⟨⟨name, workflows⟩, parameters, read⟩ := Except.bind_eq_ok_iff.mp read
  obtain rfl := Except.ok.inj read
  obtain ⟨configs, devices, later, same, related⟩ := once_of_readEntries drafted
  obtain ⟨name', workflows', both, names, maps⟩ := once_of_readParameters parameters
  obtain ⟨rfl, rfl⟩ := Prod.mk.inj both
  obtain rfl : draft.parameters = later := same
  have distinct : ∀ entry ∈ entries, entry.2.distinctKeys :=
    (Node.distinct_entries regular.distinct seen).2
  refine ⟨showsOr_of_once seen (once_of_parameters related (by decide) ?_ names),
    showsOr_of_once seen (once_of_parameters related (by decide) ?_ maps),
    showsOr_of_once seen (configs.imp ?_), showsOr_of_once seen (devices.imp ?_)⟩
  · exact fun entry _ _ value text => written?_of_readText
  · exact fun entry member written value map => showsWorkflows_of_readMap regular words
      ((Node.mem_named_iff seen).mpr ⟨entry, member, written, rfl⟩)
  · rintro entry member map ⟨path, found⟩
    exact showsMap_of_readNodeMap (distinct entry member)
      (fun part _ path texts => showsTexts_of_readScalars) found
  · rintro entry member map ⟨path, found⟩
    exact showsMap_of_readNodeMap (distinct entry member) (fun part inside path device =>
      showsDevice_of_readDevice (Node.distinctKeys_of_mem_parts (distinct entry member) inside)) found

/-- What a valid text without numbered fields shows, its catalog holds. -/
theorem shownBy_of_parse {text : String} {document : Node} {catalog : Catalog}
    (tree : Node.ofText? text = some (some document)) (regular : Regular document)
    (words : ¬ NumbersFields document) (accepted : parse text = .ok catalog) :
    ShownBy document catalog := by
  obtain ⟨read, found, accepted⟩ := Except.bind_eq_ok_iff.mp accepted
  obtain ⟨_, _, accepted⟩ := Except.bind_eq_ok_iff.mp accepted
  obtain rfl := Except.ok.inj accepted
  rw [Except.mapError_eq_ok_iff, ofText, tree] at found
  exact shownBy_of_ofNode regular words found

/-- The catalog that is read of a document holds what it shows, nothing else and each text as it is
written, exactly if no field of a workflow or a block is given by its number. -/
theorem shownBy_iff {document : Node} {catalog : Catalog} (regular : Regular document)
    (read : ofNode document = .ok catalog) :
    ShownBy document catalog ↔ ¬ NumbersFields document :=
  ⟨fun shown => shown.not_numbersFields regular.distinct,
    fun words => shownBy_of_ofNode regular words read⟩

theorem shownBy_versions :
    let text := "workflows:\n desktop:\n  matrix:\n   standard:\n    os: [a, \"1.10\"]\n" ++
      "   expanded:\n  config: ~\nbuild_configs:\n ios: [1.10, true]\n" ++
      "devices:\n phone:\n  type: real\n  version: 0x1f\n  model: ~\n"
    ∃ document catalog, Node.ofText? text = some (some document) ∧ Regular document ∧
      ofNode document = .ok catalog ∧ ¬ NumbersFields document ∧ ShownBy document catalog := by
  intro text
  have checked : (Node.ofText? text).join.any fun document =>
      Regular document ∧ ¬ NumbersFields document ∧ (ofNode document).toOption.isSome := by
    decide +kernel
  obtain ⟨document, found, checked⟩ := (Option.any_eq_true _ _).mp checked
  obtain ⟨regular, words, accepted⟩ := of_decide_eq_true checked
  obtain ⟨catalog, read⟩ := Option.isSome_iff_exists.mp accepted
  have read := Except.eq_ok_of_toOption read
  exact ⟨document, catalog, Option.join_eq_some_iff.mp found, regular, read, words,
    (shownBy_iff regular read).mpr words⟩

/-- A block that is given by its number is in the catalog, though there is no such field. -/
theorem parse_numbered_block :
    let text := "workflows:\n desktop:\n  0:\n   standard:\n    os: [a]\n"
    let catalog : Catalog :=
      { defaultWorkflow := "desktop"
        workflows := SortedMap.empty.insert "desktop"
          ⟨some ⟨SortedMap.empty.insert "os" (.list ["a"]), none⟩, none⟩
        buildConfigs := .empty
        devices := .empty }
    parse text = .ok catalog ∧ ∃ document, Node.ofText? text = some (some document) ∧
      Regular document ∧ (∃ node ∈ workflowNodes document, ∃ key ∈ node.keys,
        key.written? = some "0") ∧ ¬ ShownBy document catalog := by
  intro text catalog
  have parsed : (parse text).toOption = some catalog := by decide +kernel
  have checked : (Node.ofText? text).join.any fun document =>
      Regular document ∧ NumbersFields document ∧
        ∃ node ∈ workflowNodes document, ∃ key ∈ node.keys, key.written? = some "0" := by
    decide +kernel
  obtain ⟨document, found, checked⟩ := (Option.any_eq_true _ _).mp checked
  obtain ⟨regular, numbered, undeclared⟩ := of_decide_eq_true checked
  exact ⟨Except.eq_ok_of_toOption parsed, document, Option.join_eq_some_iff.mp found, regular,
    undeclared, fun shown => shown.not_numbersFields regular.distinct numbered⟩

end WorkflowKit.Catalog
