import WorkflowKit.Proofs.Catalog.Readers
import WorkflowKit.Proofs.Catalog.Shows
import WorkflowKit.Proofs.List
import WorkflowKit.Proofs.SortedMap

namespace WorkflowKit.Catalog

open Yaml (Node Value Fault)

variable {α : Type}

theorem filterMap_written? {Shows : Node → α → Prop} {entries : List (Node × Node)}
    {pairs : List (String × α)}
    (related : List.Forall₂ (fun entry pair => entry.1.written? = some pair.1 ∧
      Shows entry.2 pair.2) entries pairs) :
    entries.filterMap (·.1.written?) = pairs.map (·.1) := by
  induction related with
  | nil => rfl
  | cons first _ ih => rw [List.filterMap_cons, first.1, List.map_cons, ih]

/-- Where each entry shows a name and a value, the map of the names and values is shown. -/
theorem showsMap_ofList {Shows : Node → α → Prop} {node : Node} {entries : List (Node × Node)}
    {pairs : List (String × α)} (distinct : node.distinctKeys)
    (seen : node.entries? = some entries)
    (related : List.Forall₂ (fun entry pair => entry.1.written? = some pair.1 ∧
      Shows entry.2 pair.2) entries pairs) :
    ShowsMap Shows node (.ofList pairs) := by
  have names : (pairs.map (·.1)).Nodup :=
    filterMap_written? related ▸ (Node.distinct_entries distinct seen).1
  refine ⟨by rw [seen]; rfl, fun key member => ?_, fun name part member => ?_,
    fun name value found => ?_⟩
  · obtain ⟨entry, inside, rfl⟩ := (Node.mem_keys_iff seen).mp member
    obtain ⟨pair, _, written, _⟩ := related.exists_value inside
    rw [written]
    rfl
  · obtain ⟨entry, inside, written, rfl⟩ := (Node.mem_named_iff seen).mp member
    obtain ⟨pair, listed, same, shows⟩ := related.exists_value inside
    obtain rfl := Option.some.inj (written.symm.trans same)
    exact ⟨pair.2, SortedMap.get?_ofList_of_mem names listed, shows⟩
  · have listed : (name, value) ∈ pairs :=
      SortedMap.mem_of_mem_ofList ((SortedMap.mem_entries_iff _ _ _).mpr found)
    obtain ⟨entry, inside, written, shows⟩ := related.exists_item listed
    exact ⟨entry.2, (Node.mem_named_iff seen).mpr ⟨entry, inside, written, rfl⟩, shows⟩

/-- A field before and after some entries are read: either none of them is its own, or it had no value
and one of them gave it. -/
inductive Once {κ β : Type} (mine : κ → Prop) (read : β → α → Prop) :
    List (κ × β) → Option α → Option α → Prop
  | kept {entries : List (κ × β)} {before : Option α} :
      (∀ entry ∈ entries, ¬ mine entry.1) → Once mine read entries before before
  | taken {entries : List (κ × β)} {entry : κ × β} {a : α} :
      entry ∈ entries → mine entry.1 → read entry.2 a → Once mine read entries none (some a)

namespace Once

variable {κ β : Type} {mine : κ → Prop} {read : β → α → Prop} {entries : List (κ × β)}
  {entry : κ × β} {before after : Option α} {a : α}

theorem skip (other : ¬ mine entry.1) (rest : Once mine read entries before after) :
    Once mine read (entry :: entries) before after := by
  cases rest with
  | kept none => exact .kept (List.forall_mem_cons.mpr ⟨other, none⟩)
  | taken member own fits => exact .taken (List.mem_cons_of_mem _ member) own fits

theorem take (own : mine entry.1) (fits : read entry.2 a)
    (rest : Once mine read entries (some a) after) :
    Once mine read (entry :: entries) none after := by
  cases rest with
  | kept => exact .taken List.mem_cons_self own fits

theorem imp {read' : β → α → Prop} (once : Once mine read entries before after)
    (reads : ∀ entry ∈ entries, ∀ a, read entry.2 a → read' entry.2 a) :
    Once mine read' entries before after := by
  cases once with
  | kept none => exact .kept none
  | taken member own found => exact .taken member own (reads _ member _ found)

/-- What is read of the values of entries is read of the entries themselves. -/
theorem transfer {κ' β' : Type} {mine' : κ' → Prop} {read' : β' → α → Prop}
    {entries' : List (κ' × β')} {R : κ × β → κ' × β' → Prop}
    (once : Once mine' read' entries' before after) (related : List.Forall₂ R entries entries')
    (owns : ∀ entry ∈ entries, ∀ value ∈ entries', R entry value → (mine entry.1 ↔ mine' value.1))
    (reads : ∀ entry ∈ entries, mine entry.1 → ∀ value, R entry value →
      ∀ a, read' value.2 a → read entry.2 a) :
    Once mine read entries before after := by
  cases once with
  | kept none =>
    refine .kept fun entry member own => ?_
    obtain ⟨value, inside, fits⟩ := related.exists_value member
    exact none value inside ((owns entry member value inside fits).mp own)
  | taken inside own found =>
    obtain ⟨entry, member, fits⟩ := related.exists_item inside
    have own := (owns entry member _ inside fits).mpr own
    exact .taken member own (reads entry member own _ fits _ found)

theorem of_filter {keep : κ × β → Bool} (once : Once mine read (entries.filter keep) before after)
    (keeps : ∀ entry, mine entry.1 → keep entry) : Once mine read entries before after := by
  cases once with
  | kept none =>
    refine .kept fun entry member own => ?_
    exact none entry (List.mem_filter.mpr ⟨member, keeps entry own⟩) own
  | taken member own found => exact .taken (List.mem_filter.mp member).1 own found

end Once

/-- What a node shows of an optional part: nothing if it is null. -/
def ShowsGiven (Shows : Node → α → Prop) (part : Node) : Option α → Prop
  | none => part.meaning? = some .null
  | some value => ¬ part.isNull ∧ Shows part value

variable {Shows : Node → α → Prop} {node : Node} {entries : List (Node × Node)} {name : String}

theorem showsOr_of_once {found : Option α} {usual : α} (seen : node.entries? = some entries)
    (once : Once (fun key => key.written? = some name) Shows entries none found) :
    ShowsOr usual Shows node name (found.getD usual) := by
  cases once with
  | kept none =>
    refine .missing (List.eq_nil_iff_forall_not_mem.mpr fun part member => ?_)
    obtain ⟨entry, inside, written, _⟩ := (Node.mem_named_iff seen).mp member
    exact none entry inside written
  | taken member own shows =>
    exact .given ((Node.mem_named_iff seen).mpr ⟨_, member, own, rfl⟩) shows

theorem showsOptional_of_once {found : Option (Option α)} (distinct : node.distinctKeys)
    (seen : node.entries? = some entries)
    (once : Once (fun key => key.written? = some name) (ShowsGiven Shows) entries none found) :
    ShowsOptional Shows node name (found.getD none) := by
  cases once with
  | kept none =>
    refine .absent fun part member => ?_
    obtain ⟨entry, inside, written, _⟩ := (Node.mem_named_iff seen).mp member
    exact absurd written (none entry inside)
  | @taken entry value member own shows =>
    have inside : entry.2 ∈ node.named name :=
      (Node.mem_named_iff seen).mpr ⟨entry, member, own, rfl⟩
    cases value with
    | none =>
      refine .absent fun part other => ?_
      obtain rfl := Node.eq_of_mem_named distinct inside other
      exact shows
    | some value => exact .present inside shows.1 shows.2

theorem written?_of_readText {key : Node} {value : Value} {text : String} (reads : key.Reads value)
    (read : readText value = .ok text) : key.written? = some text := by
  obtain rfl := readText_eq_ok_iff.mp read
  exact Node.written?_of_meaning? reads.shown

theorem showsTexts_of_reads {items : List Node} {values : List Value} {texts : List String}
    (reads : List.Forall₂ Node.Reads items values)
    (read : values.mapM readText = .ok texts) : List.Forall₂ ShowsText items texts :=
  reads.through (Except.mapM_eq_ok_iff.mp read) fun _ _ _ _ => written?_of_readText

/-- A setting is a text or a list of texts, as its node is. -/
theorem showsSetting_of_readSetting {value : Value} {setting : Setting} (reads : node.Reads value)
    (read : readSetting value = .ok setting) : ShowsSetting node setting := by
  unfold readSetting at read
  split at read
  · obtain rfl := Except.ok.inj read
    exact .text (Node.written?_of_meaning? reads.shown)
  · split at read
    · rename_i found
      obtain rfl := Except.ok.inj read
      obtain ⟨_, items, seen, inside⟩ := reads.shown
      exact .list ⟨items, seen, showsTexts_of_reads inside found⟩
    · cases read
  · cases read

/-- A mapping that is read through values shows its map, as one that is read node by node does. -/
theorem showsMap_of_readMap {read : Value → Except Fault α} {value : Value} {map : SortedMap α}
    (distinct : node.distinctKeys) (reads : node.Reads value)
    (parts : ∀ part ∈ node.parts, ∀ value a, part.Reads value → read value = .ok a → Shows part a)
    (found : readMap read value = .ok map) : ShowsMap Shows node map := by
  cases value with
  | scalar => cases found
  | sequence => cases found
  | mapping values =>
    obtain ⟨_, entries, seen, related⟩ := reads.shown
    obtain ⟨pairs, gives, rfl⟩ := readMap_mapping_eq_ok_iff.mp found
    refine showsMap_ofList distinct seen
      (related.through gives fun entry member value pair reads one => ?_)
    exact ⟨written?_of_readText reads.1 (readText_eq_ok_iff.mpr one.1),
      parts entry.2 ((Node.mem_parts_iff seen).mpr ⟨entry, member, rfl⟩) _ _ reads.2 one.2⟩

/-- What is optional is absent where the value is null. -/
theorem showsGiven_of_readOptional {read : Value → Except Fault α} {part : Node} {value : Value}
    {found : Option α} (reads : part.Reads value)
    (shows : part.meaning? ≠ some .null → ∀ a, read value = .ok a → Shows part a)
    (optional : readOptional read value = .ok found) : ShowsGiven Shows part found := by
  unfold readOptional at optional
  split at optional
  · obtain rfl := Except.ok.inj optional
    exact reads.shown
  · rename_i other
    have given : part.meaning? ≠ some .null := fun null => other (reads.eq_scalar null)
    obtain ⟨a, found, rfl⟩ := Except.map_eq_ok_iff.mp optional
    exact ⟨fun null => given (Node.meaning?_of_isNull null), shows given a found⟩

/-- A key that is no number stands for the field that it names. -/
theorem written?_of_readField {first second : String} {key : Node} {value : Value} {side : Bool}
    (reads : key.Reads value) (word : ¬ key.isNumber)
    (read : readField first second value = .ok side) :
    key.written? = some (bif side then first else second) := by
  unfold readField at read
  split at read
  · have written := Node.written?_of_meaning? reads.shown
    split at read
    · rename_i same
      obtain rfl := Except.ok.inj read
      rw [written, same, cond_true]
    · split at read
      · rename_i same
        obtain rfl := Except.ok.inj read
        rw [written, same, cond_false]
      · cases read
  · refine absurd ?_ word
    rw [Node.isNumber, show key.meaning? = _ from reads.shown]
  · cases read

/-- A key that is no number is taken as the field whose name is written. -/
theorem written?_iff_readField {first second : String} {key : Node} {value : Value}
    {side other : Bool} (different : first ≠ second) (reads : key.Reads value)
    (word : ¬ key.isNumber) (read : readField first second value = .ok other) :
    key.written? = some (bif side then first else second) ↔
      readField first second value = .ok side := by
  refine ⟨fun written => ?_, written?_of_readField reads word⟩
  have same := Option.some.inj (written.symm.trans (written?_of_readField reads word read))
  cases side <;> cases other
  · exact read
  · exact absurd same.symm different
  · exact absurd same different
  · exact read

variable {β : Type} {readFirst : Value → Except Fault α} {readSecond : Value → Except Fault β}

/-- Each key stands for one of the two fields, and each field is read at most once. -/
theorem once_of_readFields {first second : String} {entries : List (Value × Value)}
    {a a' : Option α} {b b' : Option β}
    (read : readFields first second readFirst readSecond entries a b = .ok (a', b')) :
    (∀ entry ∈ entries, ∃ side, readField first second entry.1 = .ok side) ∧
      Once (readField first second · = .ok true) (readFirst · = .ok ·) entries a a' ∧
      Once (readField first second · = .ok false) (readSecond · = .ok ·) entries b b' := by
  induction entries generalizing a b with
  | nil =>
    cases read
    exact ⟨List.forall_mem_nil _, .kept (List.forall_mem_nil _), .kept (List.forall_mem_nil _)⟩
  | cons entry entries ih =>
    rcases readFields_cons_eq_ok_iff.mp read with
      ⟨field, rfl, new, found, rest⟩ | ⟨field, rfl, new, found, rest⟩
    · obtain ⟨keys, firsts, seconds⟩ := ih rest
      exact ⟨List.forall_mem_cons.mpr ⟨⟨true, field⟩, keys⟩, firsts.take field found,
        seconds.skip (by simp [field])⟩
    · obtain ⟨keys, firsts, seconds⟩ := ih rest
      exact ⟨List.forall_mem_cons.mpr ⟨⟨false, field⟩, keys⟩, firsts.skip (by simp [field]),
        seconds.take field found⟩

/-- The fields that are read of a mapping are those that its node shows. -/
theorem once_of_readPair {ShowsFirst : Node → α → Prop} {ShowsSecond : Node → β → Prop}
    {type first second : String} {value : Value} {a : Option α} {b : Option β}
    (different : first ≠ second) (mapping : node.isMapping)
    (words : ∀ key ∈ node.keys, ¬ key.isNumber)
    (firsts : ∀ part ∈ node.parts, ∀ value a, part.Reads value → readFirst value = .ok a →
      ShowsFirst part a)
    (seconds : ∀ part ∈ node.parts, ∀ value b, part.Reads value → readSecond value = .ok b →
      ShowsSecond part b)
    (reads : node.Reads value)
    (read : readPair type first second readFirst readSecond value = .ok (a, b)) :
    Declares [first, second] node ∧ ∃ entries, node.entries? = some entries ∧
      Once (fun key => key.written? = some first) ShowsFirst entries none a ∧
      Once (fun key => key.written? = some second) ShowsSecond entries none b := by
  obtain ⟨values, rfl⟩ := reads.eq_mapping mapping
  obtain ⟨_, entries, seen, related⟩ := reads.shown
  obtain ⟨keys, takenFirst, takenSecond⟩ := once_of_readFields read
  have word : ∀ entry ∈ entries, ¬ entry.1.isNumber := fun entry member =>
    words entry.1 ((Node.mem_keys_iff seen).mpr ⟨entry, member, rfl⟩)
  have part : ∀ entry ∈ entries, entry.2 ∈ node.parts := fun entry member =>
    (Node.mem_parts_iff seen).mpr ⟨entry, member, rfl⟩
  -- The reader sees values of keys. They name the fields that the keys have written, as none is a
  -- number.
  have owns : ∀ side, ∀ entry ∈ entries, ∀ value ∈ values,
      entry.1.Reads value.1 ∧ entry.2.Reads value.2 →
      (entry.1.written? = some (bif side then first else second) ↔
        readField first second value.1 = .ok side) := fun side entry member value inside reads =>
    (keys value inside).elim fun _ => written?_iff_readField different reads.1 (word entry member)
  refine ⟨fun key member => ?_, entries, seen, takenFirst.transfer related (owns true) ?_,
    takenSecond.transfer related (owns false) ?_⟩
  · obtain ⟨entry, inside, rfl⟩ := (Node.mem_keys_iff seen).mp member
    obtain ⟨value, listed, reads, _⟩ := related.exists_value inside
    obtain ⟨side, field⟩ := keys value listed
    refine ⟨_, ?_, written?_of_readField reads (word entry inside) field⟩
    cases side <;> simp
  · exact fun entry member _ value reads a => firsts entry.2 (part entry member) value.2 a reads.2
  · exact fun entry member _ value reads b => seconds entry.2 (part entry member) value.2 b reads.2

theorem showsSettings_of_readMap {value : Value} {settings : Settings}
    (distinct : node.distinctKeys) (reads : node.Reads value)
    (read : readMap readSetting value = .ok settings) : ShowsMap ShowsSetting node settings :=
  showsMap_of_readMap distinct reads (fun _ _ _ _ => showsSetting_of_readSetting) read

theorem showsBlock_of_readBlock {value : Value} {block : Block} (distinct : node.distinctKeys)
    (mapping : node.isMapping) (words : ∀ key ∈ node.keys, ¬ key.isNumber)
    (reads : node.Reads value) (read : readBlock value = .ok block) : ShowsBlock node block := by
  obtain ⟨⟨standard, expanded⟩, pair, read⟩ := Except.bind_eq_ok_iff.mp read
  obtain rfl := Except.ok.inj read
  have settings : ∀ part ∈ node.parts, ∀ value settings, part.Reads value →
      readMap readSetting value = .ok settings → ShowsMap ShowsSetting part settings :=
    fun part member _ _ => showsSettings_of_readMap (Node.distinctKeys_of_mem_parts distinct member)
  obtain ⟨declared, entries, seen, takenStandard, takenExpanded⟩ :=
    once_of_readPair (by decide) mapping words settings
      (fun part member value _ reads =>
        showsGiven_of_readOptional reads fun _ found => settings part member value found reads)
      reads pair
  exact ⟨declared, showsOr_of_once seen takenStandard,
    showsOptional_of_once distinct seen takenExpanded⟩

/-- A workflow whose keys are names has the blocks that are written. -/
theorem showsWorkflow_of_readWorkflow {value : Value} {workflow : Workflow}
    (distinct : node.distinctKeys) (mapping : node.isMapping)
    (words : ∀ key ∈ node.keys, ¬ key.isNumber)
    (blocks : ∀ part ∈ node.parts, part.isMapping ∨ part.meaning? = some .null)
    (blockWords : ∀ part ∈ node.parts, ∀ key ∈ part.keys, ¬ key.isNumber)
    (reads : node.Reads value) (read : readWorkflow value = .ok workflow) :
    ShowsWorkflow node workflow := by
  obtain ⟨⟨matrix, config⟩, pair, read⟩ := Except.bind_eq_ok_iff.mp read
  obtain rfl := Except.ok.inj read
  have block : ∀ part ∈ node.parts, ∀ value block, part.Reads value →
      readOptional readBlock value = .ok block → ShowsGiven ShowsBlock part block :=
    fun part member value _ reads => showsGiven_of_readOptional reads fun given _ =>
      showsBlock_of_readBlock (Node.distinctKeys_of_mem_parts distinct member)
        ((blocks part member).resolve_right given) (blockWords part member) reads
  obtain ⟨declared, entries, seen, takenMatrix, takenConfig⟩ :=
    once_of_readPair (by decide) mapping words block block reads pair
  exact ⟨declared, showsOptional_of_once distinct seen takenMatrix,
    showsOptional_of_once distinct seen takenConfig⟩

/-- The default workflow and the workflows are read at most once, and missing ones are as usual. -/
theorem once_of_readParameters {entries : List (String × Value)} {name : Option String}
    {workflows : Option (SortedMap Workflow)} {found : String × SortedMap Workflow}
    (read : readParameters entries name workflows = .ok found) :
    ∃ name' workflows', found = (name'.getD usualDefault, workflows'.getD .empty) ∧
      Once (· = "default_workflow") (readText · = .ok ·) entries name name' ∧
      Once (· = "workflows") (readMap readWorkflow · = .ok ·) entries workflows workflows' := by
  induction entries generalizing name workflows with
  | nil =>
    obtain rfl := Except.ok.inj read
    exact ⟨name, workflows, rfl, .kept (List.forall_mem_nil _), .kept (List.forall_mem_nil _)⟩
  | cons entry entries ih =>
    obtain ⟨key, value⟩ := entry
    rw [readParameters] at read
    split at read
    · rename_i same
      cases name with
      | some old => cases read
      | none =>
        obtain ⟨new, text, read⟩ := Except.bind_eq_ok_iff.mp read
        obtain ⟨name', workflows', same', names, maps⟩ := ih read
        exact ⟨name', workflows', same', names.take same text, maps.skip (by simp [same])⟩
    · rename_i notName
      split at read
      · rename_i same
        cases workflows with
        | some old => cases read
        | none =>
          obtain ⟨new, map, read⟩ := Except.bind_eq_ok_iff.mp read
          obtain ⟨name', workflows', same', names, maps⟩ := ih read
          exact ⟨name', workflows', same', names.skip notName, maps.take same map⟩
      · rename_i other
        obtain ⟨name', workflows', same', names, maps⟩ := ih read
        exact ⟨name', workflows', same', names.skip notName, maps.skip other⟩

end WorkflowKit.Catalog
