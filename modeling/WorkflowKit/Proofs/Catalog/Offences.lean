import WorkflowKit.Proofs.Catalog.Rearranged
import WorkflowKit.Proofs.Catalog.Slots

namespace WorkflowKit

/-- What is said of a slot whose value has the wrong shape. -/
def Slot.offence (slot : Slot) : Offence :=
  .wrongShape slot.kind slot.key slot.workflow

/-- Holds of a value that has the wrong shape for its slot. -/
def Slot.misfits (entry : Slot × Setting) : Bool :=
  !entry.2.suits entry.1.kind

/-- The first slot of a block that does not fit is the key of which the block is told. -/
theorem Block.find?_slots (block : Block) (name : String) (kind : Kind) :
    ((block.slots name kind).find? Slot.misfits).map (·.1.offence) =
      (block.misshapen? kind).map fun key => .wrongShape kind key name := by
  obtain ⟨standard, expanded⟩ := block
  cases expanded <;>
    simp [slots, part?, Settings.slots, misshapen?, settings, Slot.misfits, List.find?_append,
      List.find?_map, Function.comp_def, Slot.offence, Option.map_or]

theorem Workflow.find?_slots (workflow : Workflow) (name : String) :
    ((workflow.slots name).find? Slot.misfits).map (·.1.offence) = workflow.offence? name := by
  rw [slots, List.find?_flatMap, List.map_findSome?]
  unfold offence?
  congr 1
  funext kind
  rw [Function.comp_apply]
  cases workflow.block kind with
  | none => rfl
  | some block => exact block.find?_slots name kind

namespace Catalog

variable {catalog : Catalog} {workflow : Workflow} {block : Block}

/-- Looking through the slots of a catalog finds what looking through its workflows finds. -/
theorem find?_slots (catalog : Catalog) :
    (catalog.slots.find? Slot.misfits).map (·.1.offence) =
      catalog.workflows.entries.findSome? fun (name, workflow) => workflow.offence? name := by
  rw [slots, List.find?_flatMap, List.map_findSome?]
  congr 1
  funext entry
  exact entry.2.find?_slots entry.1

/-- Past the checks of the default workflow the search decides. -/
theorem validate_of_matrix
    (usual : catalog.workflows.get? catalog.defaultWorkflow = some workflow)
    (matrix : workflow.matrix = some block) :
    catalog.validate =
      ((catalog.slots.find? Slot.misfits).map (·.1.offence)).elim (.ok ()) .error := by
  rw [find?_slots]
  simp only [validate, offence?, default?, usual, matrix, Option.isNone_some, Bool.false_eq_true,
    if_false]
  cases catalog.workflows.entries.findSome? fun (name, workflow) => workflow.offence? name <;> rfl

/-- Holds of the slots that have a value of the wrong shape: one that is no list in a matrix, or no
text in a config. -/
def Offends (catalog : Catalog) (slot : Slot) : Prop :=
  ∃ value, catalog.setting? slot = some value ∧ value.shape ≠ slot.kind

theorem offends_iff {slot : Slot} :
    catalog.Offends slot ↔ ∃ value, (slot, value) ∈ catalog.slots ∧ Slot.misfits (slot, value) := by
  simp only [Offends, mem_slots_iff, Slot.misfits, Bool.not_eq_true', Bool.eq_false_iff, ne_eq,
    Setting.suits_iff]

/-- Nothing is found exactly if no slot offends. -/
theorem find?_slots_eq_none_iff :
    catalog.slots.find? Slot.misfits = none ↔ ∀ slot, ¬ catalog.Offends slot := by
  simp only [List.find?_eq_none, offends_iff, not_exists, not_and, Prod.forall]

/-- The search stops at the least of the slots that offend, as it has passed the others by. -/
theorem least_of_find?_slots {entry : Slot × Setting}
    (found : catalog.slots.find? Slot.misfits = some entry) :
    catalog.Offends entry.1 ∧
      ∀ other, catalog.Offends other → other = entry.1 ∨ entry.1.Before other := by
  obtain ⟨wrong, before, after, parts, passed⟩ := List.find?_eq_some_iff_append.mp found
  refine ⟨offends_iff.mpr ⟨entry.2, List.mem_of_find?_eq_some found, wrong⟩, fun other offends => ?_⟩
  obtain ⟨value, member, wrong'⟩ := offends_iff.mp offends
  have ascending := catalog.slots_ascending
  rw [parts] at member ascending
  rcases List.mem_append.mp member with earlier | here
  · have suitable := passed _ earlier
    rw [wrong'] at suitable
    cases suitable
  · rcases List.mem_cons.mp here with same | later
    · exact Or.inl (congrArg Prod.fst same)
    · exact Or.inr ((List.pairwise_cons.mp (List.pairwise_append.mp ascending).2.1).1 _ later)

/-- What has to be said of a catalog. -/
inductive Deserves (catalog : Catalog) : Except Offence Unit → Prop
  | defaultUndefined : catalog.workflows.get? catalog.defaultWorkflow = none →
      Deserves catalog (.error (.defaultUndefined catalog.defaultWorkflow))
  | defaultWithoutMatrix {workflow : Workflow} :
      catalog.workflows.get? catalog.defaultWorkflow = some workflow → workflow.matrix = none →
      Deserves catalog (.error (.defaultWithoutMatrix catalog.defaultWorkflow))
  /-- Of all slots that offend, the least is told. -/
  | wrongShape {workflow : Workflow} {block : Block} {slot : Slot} :
      catalog.workflows.get? catalog.defaultWorkflow = some workflow →
      workflow.matrix = some block → catalog.Offends slot →
      (∀ other, catalog.Offends other → other = slot ∨ slot.Before other) →
      Deserves catalog (.error (.wrongShape slot.kind slot.key slot.workflow))
  | valid {workflow : Workflow} {block : Block} :
      catalog.workflows.get? catalog.defaultWorkflow = some workflow →
      workflow.matrix = some block → (∀ slot, ¬ catalog.Offends slot) → Deserves catalog (.ok ())

/-- The verdict on a catalog is one that it deserves. -/
theorem deserves_validate (catalog : Catalog) : catalog.Deserves catalog.validate := by
  cases usual : catalog.workflows.get? catalog.defaultWorkflow with
  | none =>
    have verdict : catalog.validate = .error (.defaultUndefined catalog.defaultWorkflow) := by
      simp only [validate, offence?, default?, usual]
    exact verdict ▸ .defaultUndefined usual
  | some workflow =>
    cases matrix : workflow.matrix with
    | none =>
      have verdict : catalog.validate = .error (.defaultWithoutMatrix catalog.defaultWorkflow) := by
        simp only [validate, offence?, default?, usual, matrix, Option.isNone_none, if_true]
      exact verdict ▸ .defaultWithoutMatrix usual matrix
    | some block =>
      rw [validate_of_matrix usual matrix]
      cases found : catalog.slots.find? Slot.misfits with
      | none => exact .valid usual matrix (find?_slots_eq_none_iff.mp found)
      | some entry =>
        obtain ⟨offends, least⟩ := least_of_find?_slots found
        exact .wrongShape usual matrix offends least

/-- A catalog deserves one verdict only: two slots cannot both be the least. -/
theorem Deserves.unique {first second : Except Offence Unit} (one : catalog.Deserves first)
    (other : catalog.Deserves second) : first = second := by
  cases one <;> cases other <;> grind [Slot.Before.asymm]

/-- Validation says of a catalog exactly what it deserves. The order in which a document lists the
entries of its workflows is not seen in the catalog, nor then in the verdict. -/
theorem validate_eq_iff (catalog : Catalog) (verdict : Except Offence Unit) :
    (catalog.validate = verdict ↔ catalog.Deserves verdict) ∧ Orderless (readMap readWorkflow) := by
  refine ⟨⟨fun same => ?_, fun deserved => ?_⟩, orderless_readWorkflow.readMap⟩
  · exact same ▸ catalog.deserves_validate
  · exact catalog.deserves_validate.unique deserved

/-- Of several offences that of the workflow with the first name is told, and there that of the
standard matrix. -/
example :
    let bad : Settings := .ofList [("os", .list ["a"]), ("apis", .text "auth")]
    let catalog : Catalog :=
      { defaultWorkflow := "desktop"
        workflows := .ofList [("ios", ⟨some ⟨bad, none⟩, none⟩),
          ("desktop", ⟨some ⟨bad, some bad⟩, some ⟨bad, none⟩⟩)]
        buildConfigs := .empty
        devices := .empty }
    catalog.offence? = some (.wrongShape .matrix "apis" "desktop") := by
  decide +kernel

end Catalog

end WorkflowKit
