import WorkflowKit.Proofs.Catalog.Shape
import WorkflowKit.Proofs.Text.Order

namespace WorkflowKit

/-- A place for a setting: in a workflow and in its block of a kind, among the standard or the
expanded settings, under a key. -/
structure Slot where
  workflow : String
  kind : Kind
  expanded : Bool
  key : String

namespace Slot

/-- The order of slots: by the octets of the workflow, the matrix before the config, the standard
settings before the expanded ones, and by the octets of the key. -/
inductive Before (a b : Slot) : Prop
  | workflow : Octets.ofText a.workflow < Octets.ofText b.workflow → Before a b
  | kind : a.workflow = b.workflow → a.kind = .matrix → b.kind = .config → Before a b
  | part : a.workflow = b.workflow → a.kind = b.kind → a.expanded = false → b.expanded = true →
      Before a b
  | key : a.workflow = b.workflow → a.kind = b.kind → a.expanded = b.expanded →
      Octets.ofText a.key < Octets.ofText b.key → Before a b

theorem Before.asymm {a b : Slot} (before : a.Before b) : ¬ b.Before a := by
  have texts (x y : String) (less : Octets.ofText x < Octets.ofText y) :
      ¬ Octets.ofText y < Octets.ofText x := by
    rw [Octets.ofText_lt_iff] at less ⊢
    exact String.lt_asymm less
  intro after
  cases before <;> cases after <;> grind

end Slot

/-- The standard or the expanded settings of a block. -/
def Block.part? (block : Block) (expanded : Bool) : Option Settings :=
  if expanded then block.expanded else some block.standard

/-- What a catalog has in a slot. -/
def Catalog.setting? (catalog : Catalog) (slot : Slot) : Option Setting :=
  (catalog.block? slot.workflow slot.kind).bind fun block =>
    (block.part? slot.expanded).bind (·.get? slot.key)

def Settings.slots (settings : Settings) (place : String → Slot) : List (Slot × Setting) :=
  settings.entries.map fun entry => (place entry.1, entry.2)

def Block.slots (block : Block) (name : String) (kind : Kind) : List (Slot × Setting) :=
  [false, true].flatMap fun expanded =>
    ((block.part? expanded).map (·.slots (⟨name, kind, expanded, ·⟩))).getD []

def Workflow.slots (workflow : Workflow) (name : String) : List (Slot × Setting) :=
  Kind.all.flatMap fun kind => ((workflow.block kind).map (·.slots name kind)).getD []

/-- The slots that are filled in a catalog, in the order in which it is looked through. -/
def Catalog.slots (catalog : Catalog) : List (Slot × Setting) :=
  catalog.workflows.entries.flatMap fun (name, workflow) => workflow.slots name

theorem mem_getD_map_iff {α β : Type} {a : Option α} {f : α → List β} {b : β} :
    b ∈ (a.map f).getD [] ↔ ∃ x, a = some x ∧ b ∈ f x := by
  cases a <;> simp

section

variable {entry : Slot × Setting} {name : String} {kind : Kind}

theorem Settings.mem_slots_iff {settings : Settings} {place : String → Slot} :
    entry ∈ settings.slots place ↔
      ∃ key, settings.get? key = some entry.2 ∧ place key = entry.1 := by
  simp only [slots, List.mem_map, Prod.exists, SortedMap.mem_entries_iff, Prod.ext_iff]
  constructor
  · rintro ⟨key, value, found, same, rfl⟩
    exact ⟨key, found, same⟩
  · rintro ⟨key, found, same⟩
    exact ⟨key, entry.2, found, same, rfl⟩

/-- A block has a slot for each key of each of its parts. -/
theorem Block.mem_slots_iff {block : Block} :
    entry ∈ block.slots name kind ↔ entry.1.workflow = name ∧ entry.1.kind = kind ∧
      (block.part? entry.1.expanded).bind (·.get? entry.1.key) = some entry.2 := by
  obtain ⟨⟨workflow, kind', expanded, key⟩, value⟩ := entry
  simp only [slots, List.mem_flatMap, mem_getD_map_iff, Settings.mem_slots_iff, Slot.mk.injEq]
  constructor
  · rintro ⟨part, _, settings, given, key, found, rfl, rfl, rfl, rfl⟩
    exact ⟨rfl, rfl, Option.bind_eq_some_iff.mpr ⟨settings, given, found⟩⟩
  · rintro ⟨rfl, rfl, found⟩
    obtain ⟨settings, given, found⟩ := Option.bind_eq_some_iff.mp found
    exact ⟨expanded, by simp, settings, given, key, found, rfl, rfl, rfl, rfl⟩

theorem Workflow.mem_slots_iff {workflow : Workflow} :
    entry ∈ workflow.slots name ↔ entry.1.workflow = name ∧
      ∃ block, workflow.block entry.1.kind = some block ∧
        (block.part? entry.1.expanded).bind (·.get? entry.1.key) = some entry.2 := by
  simp only [slots, List.mem_flatMap, mem_getD_map_iff, Block.mem_slots_iff]
  constructor
  · rintro ⟨kind, _, block, given, same, rfl, found⟩
    exact ⟨same, block, given, found⟩
  · rintro ⟨same, block, given, found⟩
    exact ⟨_, Kind.mem_all _, block, given, same, rfl, found⟩

/-- No filled slot is passed over. -/
theorem Catalog.mem_slots_iff {catalog : Catalog} :
    entry ∈ catalog.slots ↔ catalog.setting? entry.1 = some entry.2 := by
  simp only [slots, List.mem_flatMap, Workflow.mem_slots_iff, setting?, block?,
    Option.bind_eq_some_iff, Prod.exists, SortedMap.mem_entries_iff]
  constructor
  · rintro ⟨name, workflow, listed, rfl, block, given, found⟩
    exact ⟨block, ⟨workflow, listed, given⟩, found⟩
  · rintro ⟨block, ⟨workflow, listed, given⟩, found⟩
    exact ⟨_, workflow, listed, rfl, block, given, found⟩

end

theorem Block.slots_ascending (block : Block) (name : String) (kind : Kind) :
    (block.slots name kind).Pairwise fun a b => a.1.Before b.1 := by
  refine List.pairwise_flatMap.mpr ⟨fun expanded _ => ?_, ?_⟩
  · cases block.part? expanded with
    | none => exact .nil
    | some settings =>
      refine List.pairwise_map.mpr (settings.ascending.imp fun before => ?_)
      exact .key rfl rfl rfl ((Octets.ofText_lt_iff _ _).mpr before)
  · rw [List.pairwise_pair]
    intro a first b second
    obtain ⟨_, _, inStandard⟩ := mem_getD_map_iff.mp first
    obtain ⟨_, _, inExpanded⟩ := mem_getD_map_iff.mp second
    obtain ⟨_, _, atA⟩ := Settings.mem_slots_iff.mp inStandard
    obtain ⟨_, _, atB⟩ := Settings.mem_slots_iff.mp inExpanded
    rw [← atA, ← atB]
    exact .part rfl rfl rfl rfl

theorem Workflow.slots_ascending (workflow : Workflow) (name : String) :
    (workflow.slots name).Pairwise fun a b => a.1.Before b.1 := by
  refine List.pairwise_flatMap.mpr ⟨fun kind _ => ?_, ?_⟩
  · cases workflow.block kind with
    | none => exact .nil
    | some block => exact block.slots_ascending name kind
  · rw [Kind.all, List.pairwise_pair]
    intro a first b second
    obtain ⟨_, _, inMatrix⟩ := mem_getD_map_iff.mp first
    obtain ⟨_, _, inConfig⟩ := mem_getD_map_iff.mp second
    obtain ⟨ofA, kindA, _⟩ := Block.mem_slots_iff.mp inMatrix
    obtain ⟨ofB, kindB, _⟩ := Block.mem_slots_iff.mp inConfig
    exact .kind (ofA.trans ofB.symm) kindA kindB

/-- Slots are looked through in ascending order, so the first offence that is found is the least. -/
theorem Catalog.slots_ascending (catalog : Catalog) :
    catalog.slots.Pairwise fun a b => a.1.Before b.1 := by
  refine List.pairwise_flatMap.mpr ⟨fun entry _ => entry.2.slots_ascending entry.1, ?_⟩
  refine catalog.workflows.ascending.imp fun before a first b second => ?_
  obtain ⟨ofA, _⟩ := Workflow.mem_slots_iff.mp first
  obtain ⟨ofB, _⟩ := Workflow.mem_slots_iff.mp second
  refine .workflow ?_
  rw [ofA, ofB]
  exact (Octets.ofText_lt_iff _ _).mpr before

end WorkflowKit
