import WorkflowKit.Proofs.Except
import WorkflowKit.Proofs.Yaml.Scalar

namespace WorkflowKit.Yaml

namespace Node

/-- The text of a scalar as it is written. -/
def written? : Node → Option String
  | scalar _ _ _ text => some text
  | reference (some target) => written? target
  | _ => none

/-- The entries of a mapping. A node of which nothing is written may stand for an empty one. -/
def entries? : Node → Option (List (Node × Node))
  | mapping _ _ entries => some entries
  | scalar _ _ style text => if text.isEmpty && style = .plain then some [] else none
  | reference (some target) => entries? target
  | _ => none

/-- The items of a sequence. A node of which nothing is written may stand for an empty one. -/
def items? : Node → Option (List Node)
  | sequence _ _ items => some items
  | scalar _ _ style text => if text.isEmpty && style = .plain then some [] else none
  | reference (some target) => items? target
  | _ => none

/-- The meaning of a scalar that has no tag of the application. -/
def meaning? : Node → Option Scalar
  | scalar _ tag style text =>
    if (ownTag? tag).isSome then none else (Scalar.read tag style text).toOption
  | reference (some target) => meaning? target
  | _ => none

/-- The name in a tag of the application, at a scalar. -/
def tagName? : Node → Option String
  | scalar _ tag _ _ => ownTag? tag
  | reference (some target) => tagName? target
  | _ => none

def isMapping : Node → Bool
  | mapping .. => true
  | reference (some target) => isMapping target
  | _ => false

/-- Holds of the plain scalars that are null. -/
def isNull : Node → Bool
  | scalar _ none .plain text => text.isEmpty || Scalar.isNull text
  | scalar _ (some tag) .plain text => tag = Scalar.coreTag "null" && Scalar.isNull text
  | reference (some target) => isNull target
  | _ => false

/-- Holds of the scalars that are integers without a minus sign, of at most 64 bits. -/
def isNumber (node : Node) : Bool :=
  match node.meaning? with
  | some (.natural _) => true
  | _ => false

/-- The nodes under a name, in the entries of a node. -/
def named (name : String) (node : Node) : List Node :=
  ((node.entries?.getD []).filter fun entry => entry.1.written? = some name).map (·.2)

def keys (node : Node) : List Node :=
  (node.entries?.getD []).map (·.1)

/-- The nodes under all names. -/
def parts (node : Node) : List Node :=
  (node.entries?.getD []).map (·.2)

mutual

/-- Holds of the documents in which no mapping has two keys with one text. -/
def distinctKeys : Node → Bool
  | scalar .. => true
  | sequence _ _ items => distinctInItems items
  | mapping _ _ entries =>
    (entries.filterMap (·.1.written?)).Nodup && distinctInEntries entries
  | reference none => true
  | reference (some target) => distinctKeys target

def distinctInItems : List Node → Bool
  | [] => true
  | item :: items => distinctKeys item && distinctInItems items

def distinctInEntries : List (Node × Node) → Bool
  | [] => true
  | (key, part) :: entries => distinctKeys key && distinctKeys part && distinctInEntries entries

end

/-- Induction along aliases. -/
theorem followed {motive : Node → Prop}
    (scalar : ∀ mark tag style text, motive (.scalar mark tag style text))
    (sequence : ∀ mark tag items, motive (.sequence mark tag items))
    (mapping : ∀ mark tag entries, motive (.mapping mark tag entries))
    (dangling : motive (.reference none))
    (reference : ∀ target, motive target → motive (.reference (some target))) :
    ∀ node, motive node
  | .scalar mark tag style text => scalar mark tag style text
  | .sequence mark tag items => sequence mark tag items
  | .mapping mark tag entries => mapping mark tag entries
  | .reference none => dangling
  | .reference (some target) =>
    reference target (followed scalar sequence mapping dangling reference target)

variable {node : Node}

theorem written?_of_text {text expected : String} {mark : Mark} {path : List Step}
    (read : node.text expected path = .ok (text, mark)) : node.written? = some text := by
  induction node using followed with
  | scalar mark tag style text => cases read; rfl
  | sequence mark tag items => cases read
  | mapping mark tag entries => cases read
  | dangling => cases read
  | reference target ih => exact ih read

theorem entries?_of_entries {expected : String} {path : List Step}
    {found : List (Node × Node) × Mark} (read : node.entries expected path = .ok found) :
    node.entries? = some found.1 := by
  induction node using followed with
  | scalar mark tag style text =>
    rw [Node.entries] at read
    split at read
    · rename_i empty
      cases read
      rw [entries?, if_pos empty]
    · cases read
  | sequence mark tag items => cases read
  | mapping mark tag entries => cases read; rfl
  | dangling => cases read
  | reference target ih => exact ih read

theorem items?_of_items {expected : String} {path : List Step} {items : List Node}
    (read : node.items expected path = .ok items) : node.items? = some items := by
  induction node using followed with
  | scalar mark tag style text =>
    rw [Node.items] at read
    split at read
    · rename_i empty
      cases read
      rw [items?, if_pos empty]
    · cases read
  | sequence mark tag items => cases read; rfl
  | mapping mark tag entries => cases read
  | dangling => cases read
  | reference target ih => exact ih read

theorem mem_named_iff {name : String} {part : Node} {entries : List (Node × Node)}
    (seen : node.entries? = some entries) :
    part ∈ node.named name ↔ ∃ entry ∈ entries, entry.1.written? = some name ∧ entry.2 = part := by
  simp [named, seen, and_assoc]

theorem mem_parts_iff {part : Node} {entries : List (Node × Node)}
    (seen : node.entries? = some entries) :
    part ∈ node.parts ↔ ∃ entry ∈ entries, entry.2 = part := by
  simp [parts, seen]

theorem mem_keys_iff {key : Node} {entries : List (Node × Node)}
    (seen : node.entries? = some entries) :
    key ∈ node.keys ↔ ∃ entry ∈ entries, entry.1 = key := by
  simp [keys, seen]

theorem mem_parts_of_mem_named {name : String} {part : Node} (member : part ∈ node.named name) :
    part ∈ node.parts := by
  obtain ⟨entry, inside, rfl⟩ := List.mem_map.mp member
  exact List.mem_map.mpr ⟨entry, (List.mem_filter.mp inside).1, rfl⟩

/-- A part stands under each name of its key. -/
theorem key_of_mem_parts {part : Node} (member : part ∈ node.parts) :
    ∃ key ∈ node.keys, ∀ name, key.written? = some name → part ∈ node.named name := by
  cases seen : node.entries? with
  | none => simp [parts, seen] at member
  | some entries =>
    obtain ⟨entry, inside, rfl⟩ := (mem_parts_iff seen).mp member
    exact ⟨entry.1, (mem_keys_iff seen).mpr ⟨entry, inside, rfl⟩, fun name written =>
      (mem_named_iff seen).mpr ⟨entry, inside, written, rfl⟩⟩

theorem distinctKeys_of_mem_entries {entries : List (Node × Node)} {entry : Node × Node}
    (distinct : distinctInEntries entries) (member : entry ∈ entries) : entry.2.distinctKeys := by
  induction entries with
  | nil => cases member
  | cons first entries ih =>
    obtain ⟨key, part⟩ := first
    simp only [distinctInEntries, Bool.and_eq_true] at distinct
    rcases List.mem_cons.mp member with rfl | later
    · exact distinct.1.2
    · exact ih distinct.2 later

/-- In a document with distinct keys the entries of each node have distinct names. -/
theorem distinct_entries {entries : List (Node × Node)} (distinct : node.distinctKeys)
    (seen : node.entries? = some entries) :
    (entries.filterMap (·.1.written?)).Nodup ∧ ∀ entry ∈ entries, entry.2.distinctKeys := by
  induction node using followed with
  | scalar mark tag style text =>
    rw [entries?] at seen
    split at seen
    · cases seen
      exact ⟨List.nodup_nil, List.forall_mem_nil _⟩
    · cases seen
  | sequence mark tag items => cases seen
  | mapping mark tag written =>
    cases seen
    simp only [distinctKeys, Bool.and_eq_true, decide_eq_true_eq] at distinct
    exact ⟨distinct.1, fun _ => distinctKeys_of_mem_entries distinct.2⟩
  | dangling => cases seen
  | reference target ih => exact ih distinct seen

theorem distinctKeys_of_mem_parts {part : Node} (distinct : node.distinctKeys)
    (member : part ∈ node.parts) : part.distinctKeys := by
  cases seen : node.entries? with
  | none => simp [parts, seen] at member
  | some entries =>
    obtain ⟨entry, inside, rfl⟩ := (mem_parts_iff seen).mp member
    exact (distinct_entries distinct seen).2 entry inside

/-- An entry is told by its name. -/
theorem eq_of_nodup_names {entries : List (Node × Node)} {name : String} {a b : Node × Node}
    (distinct : (entries.filterMap (·.1.written?)).Nodup) (first : a ∈ entries)
    (second : b ∈ entries) (ofFirst : a.1.written? = some name)
    (ofSecond : b.1.written? = some name) : a = b := by
  induction entries with
  | nil => cases first
  | cons entry entries ih =>
    have fresh : entry.1.written? = some name → ∀ other ∈ entries,
        other.1.written? ≠ some name := by
      intro here other member there
      rw [List.filterMap_cons, here] at distinct
      exact (List.nodup_cons.mp distinct).1 (List.mem_filterMap.mpr ⟨other, member, there⟩)
    rcases List.mem_cons.mp first with rfl | later
    · rcases List.mem_cons.mp second with rfl | other
      · rfl
      · exact absurd ofSecond (fresh ofFirst b other)
    · rcases List.mem_cons.mp second with rfl | other
      · exact absurd ofFirst (fresh ofSecond a later)
      · refine ih ?_ later other
        rw [List.filterMap_cons] at distinct
        split at distinct
        · exact distinct
        · exact (List.nodup_cons.mp distinct).2

/-- Under one name there is one node. -/
theorem eq_of_mem_named (distinct : node.distinctKeys) {name : String} {a b : Node}
    (first : a ∈ node.named name) (second : b ∈ node.named name) : a = b := by
  cases seen : node.entries? with
  | none => simp [named, seen] at first
  | some entries =>
    obtain ⟨entry, inside, ofFirst, rfl⟩ := (mem_named_iff seen).mp first
    obtain ⟨other, inside', ofSecond, rfl⟩ := (mem_named_iff seen).mp second
    rw [eq_of_nodup_names (distinct_entries distinct seen).1 inside inside' ofFirst ofSecond]

/-- What a node means is told by the text that is written there. -/
theorem means_of_meaning? {meaning : Scalar} (found : node.meaning? = some meaning) :
    ∃ text, node.written? = some text ∧ Scalar.Means text meaning := by
  induction node using followed with
  | scalar mark tag style text =>
    rw [Node.meaning?] at found
    split at found
    · cases found
    · cases read : Scalar.read tag style text with
      | error wrong =>
        rw [read] at found
        cases found
      | ok first =>
        rw [read] at found
        cases found
        exact ⟨text, rfl, Scalar.means_of_read read⟩
  | sequence mark tag items => cases found
  | mapping mark tag entries => cases found
  | dangling => cases found
  | reference target ih => exact ih found

theorem written?_of_meaning? {text : String} (found : node.meaning? = some (.text text)) :
    node.written? = some text := by
  obtain ⟨written, seen, means⟩ := means_of_meaning? found
  rw [seen, means.eq_text]

/-- A scalar has no keys, also where it stands for an empty mapping. -/
theorem keys_of_meaning? {meaning : Scalar} (found : node.meaning? = some meaning) :
    node.keys = [] := by
  induction node using followed with
  | scalar mark tag style text =>
    rw [keys, entries?]
    split <;> rfl
  | sequence mark tag items => cases found
  | mapping mark tag entries => cases found
  | dangling => cases found
  | reference target ih => exact ih found

theorem ownTag?_null : ownTag? (some (Scalar.coreTag "null")) = none := by
  decide

theorem meaning?_of_isNull (null : node.isNull) : node.meaning? = some .null := by
  induction node using followed with
  | scalar mark tag style text =>
    unfold isNull at null
    split at null
    · rename_i same
      cases same
      simp [Node.meaning?, ownTag?, Scalar.read, Scalar.ofPlain_of_isNull null, Except.toOption]
    · rename_i same
      cases same
      simp only [Bool.and_eq_true, decide_eq_true_eq] at null
      obtain ⟨rfl, isNull⟩ := null
      have read (style : Style) : Scalar.read (some (Scalar.coreTag "null")) style text =
          if Scalar.isNull text then .ok .null else .error ⟨text, "null"⟩ := rfl
      simp [Node.meaning?, ownTag?_null, read, isNull, Except.toOption]
    · rename_i other
      cases other
    · cases null
  | sequence mark tag items => cases null
  | mapping mark tag entries => cases null
  | dangling => cases null
  | reference target ih => exact ih null

/-- An optional text is absent where the node is null, and else as it is written. -/
theorem optionalText_eq {path : List Step} {text : Option String}
    (read : node.optionalText path = .ok text) :
    node.written?.isSome ∧ text = if node.isNull then none else node.written? := by
  induction node using followed with
  | scalar mark tag style written =>
    refine ⟨rfl, ?_⟩
    cases style with
    | plain =>
      cases tag with
      | none => exact (Except.ok.inj read).symm
      | some tag =>
        simp only [optionalText, ne_eq, not_true_eq_false, if_false] at read
        simp only [isNull, written?]
        split at read
        · rename_i core
          split at read
          · rename_i null
            simp [core, null, ← Except.ok.inj read]
          · cases read
        · rename_i other
          simp [other, ← Except.ok.inj read]
    | quoted => cases tag <;> exact (Except.ok.inj read).symm
    | block => cases tag <;> exact (Except.ok.inj read).symm
  | sequence mark tag items => cases read
  | mapping mark tag entries => cases read
  | dangling => cases read
  | reference target ih => exact ih read

/-- A variant is named by the text of a node, or by its tag. -/
theorem variant_eq_ok {known : List String} {path : List Step} {name : String}
    (read : node.variant known path = .ok name) :
    name ∈ known ∧ (node.written? = some name ∨ node.tagName? = some name) := by
  induction node using followed with
  | scalar mark tag style text =>
    rw [variant] at read
    split at read
    · rename_i own tagged
      split at read
      · cases read
      · rename_i listed
        split at read
        · cases read
          exact ⟨by simpa using listed, Or.inr tagged⟩
        · cases read
    · split at read
      · rename_i listed
        cases read
        exact ⟨by simpa using listed, Or.inl rfl⟩
      · cases read
  | sequence mark tag items =>
    -- A tag that names a variant has a scalar below it, so no collection is a variant.
    rw [variant, variant.ofCollection] at read
    split at read
    · split at read <;> cases read
    · cases read
  | mapping mark tag entries =>
    rw [variant, variant.ofCollection] at read
    split at read
    · split at read <;> cases read
    · cases read
  | dangling => cases read
  | reference target ih => exact ih read

/-- A node has a value, read at some place with some depth left. -/
def Reads (node : Node) (value : Value) : Prop :=
  ∃ depth path, node.value depth path = .ok value

theorem reads_of_itemValues {depth index : Nat} {path : List Step} {items : List Node}
    {values : List Value} (read : itemValues depth path index items = .ok values) :
    List.Forall₂ Reads items values := by
  induction items generalizing index values with
  | nil =>
    cases read
    exact .nil
  | cons item items ih =>
    rw [itemValues] at read
    obtain ⟨first, head, read⟩ := Except.bind_eq_ok_iff.mp read
    obtain ⟨others, tail, read⟩ := Except.bind_eq_ok_iff.mp read
    cases read
    exact .cons ⟨_, _, head⟩ (ih tail)

theorem reads_of_entryValues {depth : Nat} {path : List Step} {entries : List (Node × Node)}
    {values : List (Value × Value)} (read : entryValues depth path entries = .ok values) :
    List.Forall₂ (fun entry value => entry.1.Reads value.1 ∧ entry.2.Reads value.2)
      entries values := by
  induction entries generalizing values with
  | nil =>
    cases read
    exact .nil
  | cons entry entries ih =>
    obtain ⟨name, node⟩ := entry
    rw [entryValues] at read
    obtain ⟨key, named, read⟩ := Except.bind_eq_ok_iff.mp read
    obtain ⟨first, head, read⟩ := Except.bind_eq_ok_iff.mp read
    obtain ⟨others, tail, read⟩ := Except.bind_eq_ok_iff.mp read
    cases read
    exact .cons ⟨⟨_, _, named⟩, ⟨_, _, head⟩⟩ (ih tail)

/-- What can be seen of a node that has a value. -/
def Shown (node : Node) : Value → Prop
  | .scalar meaning => node.meaning? = some meaning
  | .sequence values => node.meaning? = none ∧
      ∃ items, node.items? = some items ∧ List.Forall₂ Reads items values
  | .mapping values => node.meaning? = none ∧
      ∃ entries, node.entries? = some entries ∧
        List.Forall₂ (fun entry value => entry.1.Reads value.1 ∧ entry.2.Reads value.2)
          entries values

/-- The value that is read of a node is what can be seen there. -/
theorem Reads.shown {value : Value} (reads : node.Reads value) : node.Shown value := by
  obtain ⟨depth, path, read⟩ := reads
  -- References are followed to nodes that are no references, so only those have to be looked at.
  induction node using followed with
  | scalar mark tag style text =>
    rw [Node.value] at read
    split at read
    · cases read
    · rename_i own
      split at read
      · cases read
      · cases read
      · rename_i meaning _ found
        cases read
        simp [Shown, Node.meaning?, own, found, Except.toOption]
  | sequence mark tag items =>
    rw [Node.value] at read
    split at read
    · cases read
    · split at read
      · cases read
      · obtain ⟨values, inside, same⟩ := Except.map_eq_ok_iff.mp read
        cases same
        exact ⟨rfl, items, rfl, reads_of_itemValues inside⟩
  | mapping mark tag entries =>
    rw [Node.value] at read
    split at read
    · cases read
    · split at read
      · cases read
      · obtain ⟨values, inside, same⟩ := Except.map_eq_ok_iff.mp read
        cases same
        exact ⟨rfl, entries, rfl, reads_of_entryValues inside⟩
  | dangling => cases read
  | reference target ih =>
    have shown := ih read
    cases value <;> exact shown

theorem Reads.eq_scalar {value : Value} {meaning : Scalar} (reads : node.Reads value)
    (found : node.meaning? = some meaning) : value = .scalar meaning := by
  have shown := reads.shown
  cases value with
  | scalar other => rw [Option.some.inj (found.symm.trans shown)]
  | sequence values => cases found.symm.trans shown.1
  | mapping values => cases found.symm.trans shown.1

theorem items?_of_isMapping (mapping : node.isMapping) : node.items? = none := by
  induction node using followed with
  | scalar mark tag style text => cases mapping
  | sequence mark tag items => cases mapping
  | mapping mark tag entries => rfl
  | dangling => cases mapping
  | reference target ih => exact ih mapping

theorem meaning?_of_isMapping (mapping : node.isMapping) : node.meaning? = none := by
  induction node using followed with
  | scalar mark tag style text => cases mapping
  | sequence mark tag items => cases mapping
  | mapping mark tag entries => rfl
  | dangling => cases mapping
  | reference target ih => exact ih mapping

theorem Reads.eq_mapping {value : Value} (reads : node.Reads value) (mapping : node.isMapping) :
    ∃ entries, value = .mapping entries := by
  have shown := reads.shown
  cases value with
  | scalar meaning => cases (meaning?_of_isMapping mapping).symm.trans shown
  | sequence values =>
    obtain ⟨_, items, seen, _⟩ := shown
    cases (items?_of_isMapping mapping).symm.trans seen
  | mapping entries => exact ⟨entries, rfl⟩

end Node

end WorkflowKit.Yaml
