import WorkflowKit.Proofs.Catalog.Offences
import WorkflowKit.Proofs.Except

namespace WorkflowKit

namespace Query

/-- Where a query looks in its own workflow, among the standard or the expanded settings. -/
def slot (query : Query) (expanded : Bool) : Slot :=
  ⟨query.workflow, query.kind, expanded, query.key⟩

/-- The query as it is asked of a workflow. -/
def of (query : Query) (workflow : String) : Query :=
  { query with workflow }

end Query

/-- The failure as it is told of a workflow. -/
def Failure.of (workflow : String) : Failure → Failure
  | .noParameter query => .noParameter (query.of workflow)
  | other => other

namespace Catalog

variable {catalog : Catalog} {query : Query}

/-- What a workflow has for a query by itself, without the default workflow. -/
def own? (catalog : Catalog) (query : Query) : Option Setting :=
  (if query.expanded then catalog.setting? (query.slot true) else none).or
    (catalog.setting? (query.slot false))

/-- The slots of a query are what the layers of a block have under its key. -/
theorem own?_eq_value? (catalog : Catalog) (query : Query) :
    catalog.own? query =
      Block.value? (catalog.block? query.workflow query.kind) query.expanded query.key := by
  obtain ⟨workflow, key, expanded, kind⟩ := query
  simp only [own?, Query.slot, setting?, Block.part?]
  cases catalog.block? workflow kind with
  | none => cases expanded <;> rfl
  | some block =>
    obtain ⟨standard, overlaid⟩ := block
    cases expanded with
    | false => rfl
    | true => cases overlaid <;> rfl

theorem own?_eq_none (lacking : ∀ expanded, catalog.setting? (query.slot expanded) = none) :
    catalog.own? query = none := by
  simp only [own?, lacking, ite_self, Option.or_none]

theorem own?_ne_none_of_standard {value : Setting}
    (found : catalog.setting? (query.slot false) = some value) : catalog.own? query ≠ none := by
  simp [own?, found]

/-- A workflow answers by itself if it can, and else with what the default workflow has. -/
theorem ask_result_own (catalog : Catalog) (query : Query) :
    (catalog.ask query).result =
      ((catalog.own? query).or (catalog.own? (query.of catalog.defaultWorkflow))).elim
        (.error (.noParameter query)) .ok := by
  rw [ask_result, get?_overlay, own?_eq_value?, own?_eq_value?]
  rfl

/-- A query is answered by the workflow itself, or else by the default workflow. -/
theorem toOption_ask_result (catalog : Catalog) (query : Query) :
    (catalog.ask query).result.toOption =
      (catalog.own? query).or (catalog.own? (query.of catalog.defaultWorkflow)) := by
  rw [ask_result_own]
  cases (catalog.own? query).or (catalog.own? (query.of catalog.defaultWorkflow)) <;> rfl

/-- A query fails exactly if neither the workflow nor the default workflow has the key. -/
theorem exists_ask_result_iff :
    (∃ value, (catalog.ask query).result = .ok value) ↔
      catalog.own? query ≠ none ∨ catalog.own? (query.of catalog.defaultWorkflow) ≠ none := by
  rw [ask_result_own]
  cases catalog.own? query <;>
    cases catalog.own? (query.of catalog.defaultWorkflow) <;> simp

/-- Holds of a query that is answered as the default workflow answers it. A failure tells the
workflow that was asked. -/
def Defers (catalog : Catalog) (query : Query) : Prop :=
  (catalog.ask query).result =
    (catalog.ask (query.of catalog.defaultWorkflow)).result.mapError (Failure.of query.workflow)

/-- A workflow that has nothing by itself leaves the answer to the default workflow. -/
theorem defers_of_lacking (lacking : catalog.own? query = none) : catalog.Defers query := by
  have same : (query.of catalog.defaultWorkflow).of catalog.defaultWorkflow =
      query.of catalog.defaultWorkflow := rfl
  rw [Defers, ask_result_own, ask_result_own, lacking, same, Option.none_or, Option.or_self]
  cases catalog.own? (query.of catalog.defaultWorkflow) <;> rfl

section

variable {workflow key : String} {kind : Kind}

/-- What is found for the standard run is found for the expanded one, with this value or another. -/
theorem own?_broader (found : catalog.own? ⟨workflow, key, false, kind⟩ ≠ none) :
    catalog.own? ⟨workflow, key, true, kind⟩ ≠ none := by
  simp only [own?, Query.slot, Bool.false_eq_true, if_false, if_true, Option.none_or] at found ⊢
  exact fun none => found (Option.or_eq_none_iff.mp none).2

theorem own?_eq_of_no_expanded (lacking : catalog.setting? ⟨workflow, kind, true, key⟩ = none) :
    catalog.own? ⟨workflow, key, true, kind⟩ = catalog.own? ⟨workflow, key, false, kind⟩ := by
  simp [own?, Query.slot, lacking]

/-- Expanded settings of the default workflow do not count past a standard setting of the
workflow. -/
theorem toOption_ask_result_congr (lacking : catalog.setting? ⟨workflow, kind, true, key⟩ = none)
    (covered : catalog.setting? ⟨workflow, kind, false, key⟩ ≠ none ∨
      catalog.setting? ⟨catalog.defaultWorkflow, kind, true, key⟩ = none) :
    (catalog.ask ⟨workflow, key, false, kind⟩).result.toOption =
      (catalog.ask ⟨workflow, key, true, kind⟩).result.toOption := by
  rw [toOption_ask_result, toOption_ask_result, own?_eq_of_no_expanded lacking]
  rcases covered with own | usual
  · obtain ⟨value, found⟩ := Option.ne_none_iff_exists'.mp own
    have first : catalog.own? ⟨workflow, key, false, kind⟩ = some value := by
      simp [own?, Query.slot, found]
    rw [first, Option.some_or, Option.some_or]
  · congr 1
    exact (own?_eq_of_no_expanded usual).symm

end

/-- The laws by which workflows inherit from the default one. -/
structure Inherits (catalog : Catalog) : Prop where
  /-- A default matrix is there, and no name of a workflow makes one of its standard keys
  unresolvable. -/
  resolves : ∃ block, catalog.block? catalog.defaultWorkflow .matrix = some block ∧
    ∀ key ∈ block.standard.keys, ∀ workflow expanded, ∃ entries,
      (catalog.ask ⟨workflow, key, expanded, .matrix⟩).result = .ok (.list entries)
  /-- Keys that a workflow does not define have the values of the default workflow. -/
  passes : ∀ query, (∀ expanded, catalog.setting? (query.slot expanded) = none) →
    catalog.Defers query
  broadens : ∀ workflow key kind,
    (∃ value, (catalog.ask ⟨workflow, key, false, kind⟩).result = .ok value) →
      ∃ value, (catalog.ask ⟨workflow, key, true, kind⟩).result = .ok value
  /-- Broader coverage changes a value only by the expanded settings of the workflow, or by those of
  the default workflow where the workflow does not have the key. -/
  differs : ∀ workflow key kind,
    (catalog.ask ⟨workflow, key, false, kind⟩).result.toOption ≠
        (catalog.ask ⟨workflow, key, true, kind⟩).result.toOption →
      catalog.setting? ⟨workflow, kind, true, key⟩ ≠ none ∨
        catalog.setting? ⟨workflow, kind, false, key⟩ = none ∧
          catalog.setting? ⟨catalog.defaultWorkflow, kind, true, key⟩ ≠ none
  /-- A workflow that is not defined has the answers of the default one. -/
  undefined : ∀ query, catalog.workflows.get? query.workflow = none → catalog.Defers query

/-- A default matrix of lists is all that inheritance needs of a catalog. -/
theorem inherits_of_matrix {block : Block} (shaped : catalog.WellShaped)
    (matrix : catalog.block? catalog.defaultWorkflow .matrix = some block) : catalog.Inherits where
  resolves := by
    refine ⟨block, matrix, fun key listed workflow expanded => ?_⟩
    let query : Query := ⟨workflow, key, expanded, .matrix⟩
    obtain ⟨usual, held⟩ :=
      Option.isSome_iff_exists.mp ((block.standard.mem_keys_iff key).mp listed)
    have standard : catalog.setting? ((query.of catalog.defaultWorkflow).slot false) =
        some usual := by
      simp [setting?, Query.slot, Query.of, query, matrix, Block.part?, held]
    obtain ⟨value, answered⟩ :=
      exists_ask_result_iff.mpr (Or.inr (own?_ne_none_of_standard standard))
    -- A matrix has lists only, so what is found is one.
    have shape : value.shape = .matrix := shaped.ask_shape answered
    cases value with
    | list entries => exact ⟨entries, answered⟩
    | text text => cases shape
  passes query lacking := defers_of_lacking (own?_eq_none lacking)
  broadens workflow key kind found :=
    exists_ask_result_iff.mpr ((exists_ask_result_iff.mp found).imp own?_broader own?_broader)
  differs workflow key kind different := by
    by_contra excluded
    rw [not_or, not_and_or, not_not, not_not] at excluded
    exact different (toOption_ask_result_congr excluded.1 excluded.2)
  undefined query unknown := by
    refine defers_of_lacking (own?_eq_none fun expanded => ?_)
    simp [setting?, block?, Query.slot, unknown]

/-- Every catalog that is read keeps the laws of inheritance. -/
theorem inherits_of_parse {text : String} (accepted : parse text = .ok catalog) :
    catalog.Inherits := by
  have valid := validate_of_parse accepted
  have shaped : catalog.WellShaped := wellShaped_of_validate valid
  have deserved := valid ▸ catalog.deserves_validate
  cases deserved with
  | valid usual matrix _ =>
    exact inherits_of_matrix shaped (Option.bind_eq_some_iff.mpr ⟨_, usual, matrix⟩)

/-- The workflow for iOS has a config only. The expanded matrix of the default workflow counts for
it, and for a workflow that is not defined. -/
theorem inherits_ios :
    let text := "workflows:\n desktop:\n  matrix:\n   standard:\n    os: [a]\n   expanded:\n" ++
      "    os: [a, b]\n ios:\n  config:\n   standard:\n    apis: auth\n"
    ∃ catalog, parse text = .ok catalog ∧ catalog.Inherits ∧
      (catalog.ask ⟨"ios", "os", true, .matrix⟩).result = .ok (.list ["a", "b"]) ∧
      (catalog.ask ⟨"ios", "os", false, .matrix⟩).result = .ok (.list ["a"]) ∧
      (catalog.ask ⟨"tvos", "apis", true, .config⟩).result =
        .error (.noParameter ⟨"tvos", "apis", true, .config⟩) := by
  intro text
  let catalog : Catalog :=
    { defaultWorkflow := "desktop"
      workflows := (SortedMap.empty.insert "desktop"
        ⟨some ⟨SortedMap.empty.insert "os" (.list ["a"]),
          some (SortedMap.empty.insert "os" (.list ["a", "b"]))⟩, none⟩).insert "ios"
        ⟨none, some ⟨SortedMap.empty.insert "apis" (.text "auth"), none⟩⟩
      buildConfigs := .empty
      devices := .empty }
  have read : (parse text).toOption = some catalog := by decide +kernel
  have accepted : parse text = .ok catalog := Except.eq_ok_of_toOption read
  have broad : (catalog.ask ⟨"ios", "os", true, .matrix⟩).result.toOption =
      some (.list ["a", "b"]) := by
    decide +kernel
  have plain : (catalog.ask ⟨"ios", "os", false, .matrix⟩).result.toOption =
      some (.list ["a"]) := by
    decide +kernel
  have unheld : (catalog.overlay ⟨"tvos", "apis", true, .config⟩).get? "apis" = none := by
    decide +kernel
  refine ⟨catalog, accepted, inherits_of_parse accepted, Except.eq_ok_of_toOption broad,
    Except.eq_ok_of_toOption plain, ?_⟩
  rw [ask_result, unheld]
  rfl

end Catalog

end WorkflowKit
