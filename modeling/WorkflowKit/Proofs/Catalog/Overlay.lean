import WorkflowKit.Catalog.Builtin
import WorkflowKit.Matrix
import WorkflowKit.Proofs.SortedMap

namespace WorkflowKit

/-- The standard settings of a block, none if there is no block. -/
def Block.standardOf (block : Option Block) : Settings :=
  (block.map (·.standard)).getD .empty

/-- The expanded settings of a block, none if they are missing or not asked for. -/
def Block.expandedOf (expanded : Bool) (block : Option Block) : Settings :=
  if expanded then (block.bind (·.expanded)).getD .empty else .empty

/-- What a block has under a key. -/
def Block.value? (block : Option Block) (expanded : Bool) (key : String) : Option Setting :=
  ((expandedOf expanded block).get? key).or ((standardOf block).get? key)

@[simp]
theorem Block.value?_none (expanded : Bool) (key : String) : value? none expanded key = none := by
  cases expanded <;> rfl

theorem findSome?_cons_or {α β : Type} (f : α → Option β) (a : α) (rest : List α) :
    (a :: rest).findSome? f = (f a).or (rest.findSome? f) := by
  rw [List.findSome?_cons]
  cases f a <;> rfl

/-- The layers of a block are its expanded settings over its standard ones, whatever they are called
in the log. -/
theorem Block.findSome?_layers (block : Option Block) (expanded : Bool) (above base : Layer)
    (key : String) :
    ((block.map (·.layers expanded above base)).getD []).findSome? (·.2.get? key) =
      Block.value? block expanded key := by
  cases block with
  | none => simp
  | some block =>
    obtain ⟨standard, overlaid⟩ := block
    cases expanded with
    | false => simp [layers, value?, expandedOf, standardOf]
    | true =>
      cases overlaid with
      | none => simp [layers, value?, expandedOf, standardOf]
      | some settings => simp [layers, value?, expandedOf, standardOf, findSome?_cons_or]

namespace Catalog

/-- The block of a workflow, none if the workflow or its block is missing. -/
def block? (catalog : Catalog) (workflow : String) (kind : Kind) : Option Block :=
  (catalog.workflows.get? workflow).bind (·.block kind)

/-- The settings that count for a query, the uppermost first. The default workflow is treated like
every other one. -/
def stack (catalog : Catalog) (query : Query) : List Settings :=
  let own := catalog.block? query.workflow query.kind
  let usual := catalog.block? catalog.defaultWorkflow query.kind
  [Block.expandedOf query.expanded own, Block.standardOf own,
    Block.expandedOf query.expanded usual, Block.standardOf usual]

/-- All settings that count for a query in one map. -/
def overlay (catalog : Catalog) (query : Query) : Settings :=
  (catalog.stack query).foldr SortedMap.union .empty

/-- The overlay of the four layers has the value of the workflow, and else that of the default
workflow. -/
theorem get?_overlay (catalog : Catalog) (query : Query) :
    (catalog.overlay query).get? query.key =
      (Block.value? (catalog.block? query.workflow query.kind) query.expanded query.key).or
        (Block.value? (catalog.block? catalog.defaultWorkflow query.kind) query.expanded
          query.key) := by
  rw [overlay, SortedMap.get?_foldr_union]
  simp only [stack, findSome?_cons_or, List.findSome?_nil, Block.value?, Option.or_none,
    Option.or_assoc]

/-- A query of the default workflow passes over the workflow's own layers. Looking at them would
only be looking at the same ones twice. -/
theorem find?_value (catalog : Catalog) (query : Query) :
    (catalog.find? query).map (·.value) = (catalog.overlay query).get? query.key := by
  have values : (catalog.find? query).map (·.value) =
      (catalog.layers query).findSome? (·.2.get? query.key) := by
    simp [find?, List.map_findSome?, Function.comp_def]
  rw [values, layers, List.findSome?_append, Block.findSome?_layers, Block.findSome?_layers,
    get?_overlay]
  have usual : catalog.default?.bind (·.block query.kind) =
      catalog.block? catalog.defaultWorkflow query.kind := rfl
  rw [usual]
  by_cases same : query.workflow = catalog.defaultWorkflow
  · rw [if_pos same, same, Option.or_self, Block.value?_none, Option.none_or]
  · rw [if_neg same]
    rfl

theorem ask_result (catalog : Catalog) (query : Query) :
    (catalog.ask query).result =
      ((catalog.overlay query).get? query.key).elim (.error (.noParameter query)) .ok := by
  rw [← find?_value, ask]
  cases catalog.find? query <;> rfl

/-- Asking a catalog is looking into one map of four layers. It fails only if none of them has the
key, and then it tells the whole query. What else is in the catalog does not count. -/
theorem ask_eq_overlay (catalog : Catalog) (query : Query) :
    (catalog.ask query).result =
        ((catalog.overlay query).get? query.key).elim (.error (.noParameter query)) .ok ∧
      ((catalog.ask query).result = .error (.noParameter query) ↔
        ∀ settings ∈ catalog.stack query, settings.get? query.key = none) ∧
      ∀ other : Catalog,
        other.block? query.workflow query.kind = catalog.block? query.workflow query.kind →
        other.block? other.defaultWorkflow query.kind =
          catalog.block? catalog.defaultWorkflow query.kind →
        (other.ask query).result = (catalog.ask query).result := by
  refine ⟨catalog.ask_result query, ?_, fun other own usual => ?_⟩
  · rw [ask_result, overlay, SortedMap.get?_foldr_union, ← List.findSome?_eq_none_iff]
    cases (catalog.stack query).findSome? (·.get? query.key) <;> simp
  · have layers : other.overlay query = catalog.overlay query := by
      simp only [overlay, stack, own, usual]
    rw [ask_result, ask_result, layers]

/-- Android has its own architectures, and the workflow for iOS has no part in that. -/
theorem ask_android_architecture :
    let query : Query := ⟨"android", "architecture", true, .matrix⟩
    let other := { builtin with workflows := builtin.workflows.insert "ios" ⟨none, none⟩ }
    other ≠ builtin ∧
      (other.ask query).result = (builtin.ask query).result ∧
      (builtin.ask query).result = .ok (.list ["x64"]) := by
  intro query other
  have own : other.block? query.workflow query.kind = builtin.block? query.workflow query.kind := by
    decide +kernel
  have usual : other.block? other.defaultWorkflow query.kind =
      builtin.block? builtin.defaultWorkflow query.kind := by
    decide +kernel
  have found : (builtin.overlay query).get? query.key = some (.list ["x64"]) := by
    decide +kernel
  obtain ⟨answer, _, unchanged⟩ := ask_eq_overlay builtin query
  exact ⟨by decide +kernel, unchanged other own usual, by rw [answer, found]; rfl⟩

end Catalog

end WorkflowKit
