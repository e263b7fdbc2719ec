import WorkflowKit.Proofs.Action
import WorkflowKit.Proofs.Catalog.Shape
import WorkflowKit.Proofs.Except

namespace WorkflowKit

namespace Changes

/-- What is told when a value that should be narrowed has the wrong shape. -/
def shapeWarning (key : String) : Event :=
  ⟨.warn, .changes, s!"{key} value has an unexpected shape, skipping diff filter"⟩

/-- Narrowing selects names, or leaves the value. It never turns a list into a text or back. -/
theorem narrow_shape (key : String) (value : Setting) (changed : List String) :
    (narrow key value changed).1.value.shape = value.shape := by
  unfold narrow
  split
  · cases value with
    | list entries => rfl
    | text requested =>
      simp only [narrowApis]
      split <;> rfl
  · split
    · cases value with
      | list requested =>
        simp only [narrowPlatforms]
        split <;> rfl
      | text text => rfl
    · rfl

/-- Narrowing warns of a wrong shape exactly when a list stands for the interfaces or a text for the
platforms. -/
theorem shapeWarning_mem_narrow_iff (key : String) (value : Setting) (changed : List String) :
    shapeWarning key ∈ (narrow key value changed).2 ↔
      key = apisKey ∧ value.shape = .matrix ∨ key = platformKey ∧ value.shape = .config := by
  have others : ¬ apisKey = platformKey := by decide
  unfold narrow
  split
  · rename_i apis
    subst apis
    cases value with
    | list entries => simp [narrow.unexpected, shapeWarning, Setting.shape]
    | text requested =>
      simp only [narrowApis]
      split <;> simp [shapeWarning, Setting.shape, others]
  · rename_i notApis
    split
    · rename_i platform
      subst platform
      cases value with
      | list requested =>
        simp only [narrowPlatforms]
        split <;> simp [shapeWarning, Setting.shape, notApis]
      | text text => simp [narrow.unexpected, shapeWarning, Setting.shape]
    · rename_i notPlatform
      simp [notApis, notPlatform]

theorem narrowTo_shape {workplace : Workplace} {directory branch key : String} {value : Setting}
    {outcome : Outcome}
    (narrowed : (narrowTo workplace directory branch key value).result = .ok outcome) :
    outcome.value.shape = value.shape := by
  unfold narrowTo at narrowed
  split at narrowed
  · obtain ⟨changed, _, rest⟩ := Action.result_bind_ok_iff.mp narrowed
    obtain ⟨_, _, given⟩ := Action.result_bind_ok_iff.mp rest
    have same : (narrow key value changed).1 = outcome := Except.ok.inj given
    exact same ▸ narrow_shape key value changed
  · have same : Outcome.untouched value = outcome := Except.ok.inj narrowed
    exact same ▸ rfl

theorem paths_events_level {workplace : Workplace} {directory branch : String} {event : Event}
    (told : event ∈ (paths workplace directory branch).events) : event.level = .debug := by
  have reported : event ∈
      (askGit workplace.git workplace.files directory branch).events branch := by
    simpa [paths, Action.events, List.filterMap_map, Function.comp_def] using told
  unfold GitReport.events at reported
  split at reported
  · simp only [List.mem_singleton] at reported
    exact reported ▸ rfl
  · simp at reported

/-- The warning about a shape is told only of a value with the shape that its key does not have. -/
theorem shape_of_shapeWarning_mem_narrowTo {workplace : Workplace} {directory branch key : String}
    {value : Setting}
    (warned : shapeWarning key ∈ (narrowTo workplace directory branch key value).events) :
    key = apisKey ∧ value.shape = .matrix ∨ key = platformKey ∧ value.shape = .config := by
  unfold narrowTo at warned
  split at warned
  · rcases Action.mem_events_bind.mp warned with asking | ⟨changed, _, narrowing⟩
    · cases paths_events_level asking
    · rcases Action.mem_events_bind.mp narrowing with told | ⟨_, _, nothing⟩
      · rw [Action.events_log] at told
        exact (shapeWarning_mem_narrow_iff key value changed).mp told
      · simp at nothing
  · simp at warned

end Changes

namespace Catalog

theorem ask_events_level {catalog : Catalog} {query : Query} {event : Event}
    (told : event ∈ (catalog.ask query).events) : event.level = .debug := by
  unfold ask at told
  split at told
  · rcases Action.mem_events_bind.mp told with logged | ⟨_, _, nothing⟩
    · rw [Action.events_log, List.mem_singleton] at logged
      exact logged ▸ rfl
    · simp at nothing
  · simp at told

end Catalog

theorem Registry.narrow_events_origin {registry : Registry} {types : String} {ids : List String}
    {event : Event} (told : event ∈ (registry.narrow types ids).events) :
    event.origin = .devices := by
  unfold Registry.narrow at told
  split at told
  · simp at told
  · rcases Action.mem_events_bind.mp told with logged | ⟨_, _, nothing⟩
    · rw [Action.events_log, Selection.events, List.mem_map] at logged
      obtain ⟨id, _, same⟩ := logged
      exact same ▸ rfl
    · simp at nothing

namespace MatrixQuestion

/-- Only lists are narrowed to device types, and lists they stay. -/
theorem narrowDevices_shape {question : MatrixQuestion} {catalog : Catalog}
    {value narrowed : Setting}
    (run : (question.narrowDevices catalog value).result = .ok narrowed) :
    narrowed.shape = value.shape := by
  unfold narrowDevices at run
  split at run
  · split at run
    · obtain ⟨kept, _, given⟩ := Action.result_bind_ok_iff.mp run
      have same : Setting.list kept = narrowed := Except.ok.inj given
      exact same ▸ rfl
    · exact Except.ok.inj run ▸ rfl
  · exact Except.ok.inj run ▸ rfl

theorem narrowDevices_events_origin {question : MatrixQuestion} {catalog : Catalog}
    {value : Setting} {event : Event}
    (told : event ∈ (question.narrowDevices catalog value).events) : event.origin = .devices := by
  unfold narrowDevices at told
  split at told
  · split at told
    · rcases Action.mem_events_bind.mp told with selecting | ⟨_, _, nothing⟩
      · exact Registry.narrow_events_origin selecting
      · simp at nothing
    · simp at told
  · simp at told

/-- What has changed narrows a value within its shape, whatever git answers. -/
theorem narrowChanges_shape {question : MatrixQuestion} {workplace : Workplace}
    {value narrowed : Setting}
    (run : (question.narrowChanges workplace value).result = .ok narrowed) :
    narrowed.shape = value.shape := by
  unfold narrowChanges at run
  split at run
  · exact Except.ok.inj run ▸ rfl
  · obtain ⟨outcome, filtered, rest⟩ := Action.result_bind_ok_iff.mp run
    obtain ⟨_, _, given⟩ := Action.result_bind_ok_iff.mp rest
    have same : outcome.value = narrowed := Except.ok.inj given
    exact same ▸ Changes.narrowTo_shape filtered

theorem shape_of_shapeWarning_mem_narrowChanges {question : MatrixQuestion} {workplace : Workplace}
    {value : Setting}
    (warned : Changes.shapeWarning question.query.key ∈
      (question.narrowChanges workplace value).events) :
    question.query.key = Changes.apisKey ∧ value.shape = .matrix ∨
      question.query.key = Changes.platformKey ∧ value.shape = .config := by
  unfold narrowChanges at warned
  split at warned
  · simp at warned
  · rcases Action.mem_events_bind.mp warned with filtering | ⟨outcome, _, rest⟩
    · exact Changes.shape_of_shapeWarning_mem_narrowTo filtering
    · rcases Action.mem_events_bind.mp rest with remarked | ⟨_, _, nothing⟩
      · simp at remarked
      · simp at nothing

/-- The steps from the catalog to an answer that is neither given nor the type of a device. -/
theorem answer_steps {question : MatrixQuestion} {catalog : Catalog} {workplace : Workplace}
    {answer : MatrixAnswer} (missing : question.replacement? = none)
    (noDevice : question.device = false)
    (run : (question.answer catalog workplace).result = .ok answer) :
    ∃ found wanted narrowed,
      (catalog.ask question.query).result = .ok found ∧
      (question.narrowDevices catalog found).result = .ok wanted ∧
      (question.narrowChanges workplace wanted).result = .ok narrowed ∧
      answer = .value narrowed := by
  simp only [MatrixQuestion.answer, missing, noDevice, Bool.false_eq_true, if_false] at run
  obtain ⟨found, asked, rest⟩ := Action.result_bind_ok_iff.mp run
  obtain ⟨wanted, selected, rest⟩ := Action.result_bind_ok_iff.mp rest
  obtain ⟨narrowed, filtered, given⟩ := Action.result_bind_ok_iff.mp rest
  exact ⟨found, wanted, narrowed, asked, selected, filtered, (Except.ok.inj given).symm⟩

/-- A value that is given has the shape that is asked for, as it is made for it. -/
theorem replacement?_shape {question : MatrixQuestion} {value : Setting}
    (given : question.replacement? = some value) : value.shape = question.query.kind := by
  obtain ⟨raw, _, same⟩ := Option.map_eq_some_iff.mp given
  exact same ▸ Setting.given_shape raw question.query.kind

/-- A warning of a wrong shape can only come from the narrowing to changes, and there the value still
has the shape that the catalog gave it. -/
theorem shape_of_shapeWarning_mem_answer {question : MatrixQuestion} {catalog : Catalog}
    {workplace : Workplace} (shaped : catalog.WellShaped)
    (warned : Changes.shapeWarning question.query.key ∈
      (question.answer catalog workplace).events) :
    question.query.key = Changes.apisKey ∧ question.query.kind = .matrix ∨
      question.query.key = Changes.platformKey ∧ question.query.kind = .config := by
  unfold answer at warned
  split at warned
  · simp at warned
  · split at warned
    · rcases Action.mem_events_bind.mp warned with asking | ⟨_, _, nothing⟩
      · unfold Registry.askType at asking
        split at asking <;> simp at asking
      · simp at nothing
    · rcases Action.mem_events_bind.mp warned with asking | ⟨found, asked, rest⟩
      · cases Catalog.ask_events_level asking
      · rcases Action.mem_events_bind.mp rest with selecting | ⟨wanted, selected, rest⟩
        · cases narrowDevices_events_origin selecting
        · rcases Action.mem_events_bind.mp rest with filtering | ⟨_, _, nothing⟩
          · have atNarrowing := shape_of_shapeWarning_mem_narrowChanges filtering
            rwa [narrowDevices_shape selected, shaped.ask_shape asked] at atNarrowing
          · simp at nothing

/-- Whatever the catalog, the question and git are: an answer that is not the type of a device is a
list for a matrix and a text for a config. Each step keeps the shape, and narrowing can meet a value
of the wrong shape only for a key that belongs to the other kind. -/
theorem answer_shape {catalog : Catalog} (loaded : catalog.Loaded) (question : MatrixQuestion)
    (workplace : Workplace) :
    (∀ answer, (question.answer catalog workplace).result = .ok answer →
        question.device = false ∨ question.replacement?.isSome →
        ∃ value, answer = .value value ∧ value.shape = question.query.kind) ∧
      (∀ query value, (catalog.ask query).result = .ok value → value.shape = query.kind) ∧
      (∀ raw kind, (Setting.given raw kind).shape = kind) ∧
      (∀ value narrowed, (question.narrowDevices catalog value).result = .ok narrowed →
        narrowed.shape = value.shape) ∧
      (∀ value narrowed, (question.narrowChanges workplace value).result = .ok narrowed →
        narrowed.shape = value.shape) ∧
      (Changes.shapeWarning question.query.key ∈ (question.answer catalog workplace).events →
        question.query.key = Changes.apisKey ∧ question.query.kind = .matrix ∨
          question.query.key = Changes.platformKey ∧ question.query.kind = .config) := by
  have shaped := loaded.wellShaped
  refine ⟨fun answer run noDevice => ?_, fun query value => shaped.ask_shape, Setting.given_shape,
    fun value narrowed => narrowDevices_shape, fun value narrowed => narrowChanges_shape,
    shape_of_shapeWarning_mem_answer shaped⟩
  cases given : question.replacement? with
  | some value =>
    simp only [MatrixQuestion.answer, given, Action.result_done, Except.ok.injEq] at run
    exact ⟨value, run.symm, replacement?_shape given⟩
  | none =>
    have plain : question.device = false := by simpa [given] using noDevice
    obtain ⟨found, wanted, narrowed, asked, selected, filtered, same⟩ :=
      answer_steps given plain run
    refine ⟨narrowed, same, ?_⟩
    -- The shape is that of what was found, through both kinds of narrowing.
    calc narrowed.shape
      _ = wanted.shape := narrowChanges_shape filtered
      _ = found.shape := narrowDevices_shape selected
      _ = question.query.kind := shaped.ask_shape asked

/-- Asked for a config, the platforms are a text: it is warned about and passed on. -/
theorem answer_platform_of_config :
    let text := "workflows:\n desktop:\n  matrix:\n   standard:\n    os: [a]\n" ++
      "  config:\n   standard:\n    platform: iOS\n"
    let question : MatrixQuestion :=
      ⟨⟨"ios", "platform", true, .config⟩, none, false, "real", some "main"⟩
    let workplace : Workplace := ⟨some ⟨Octets.ofText "a.mm\n", [], 0⟩, .empty⟩
    ∃ catalog, Catalog.parse text = .ok catalog ∧
      (question.answer catalog workplace).result = .ok (.value (.text "iOS")) ∧
      (∃ value, MatrixAnswer.value (.text "iOS") = .value value ∧ value.shape = .config) ∧
      Changes.shapeWarning "platform" ∈ (question.answer catalog workplace).events := by
  intro text question workplace
  let block (key : String) (value : Setting) : Block :=
    ⟨SortedMap.empty.insert key value, none⟩
  let catalog : Catalog :=
    { defaultWorkflow := "desktop"
      workflows := SortedMap.empty.insert "desktop"
        ⟨some (block "os" (.list ["a"])), some (block "platform" (.text "iOS"))⟩
      buildConfigs := .empty
      devices := .empty }
  have read : (Catalog.parse text).toOption = some catalog := by decide +kernel
  have answered : (question.answer catalog workplace).result.toOption =
      some (.value (.text "iOS")) := by
    decide +kernel
  have parsed : Catalog.parse text = .ok catalog := Except.eq_ok_of_toOption read
  have result := Except.eq_ok_of_toOption answered
  have shapes := answer_shape (Or.inl ⟨text, parsed⟩) question workplace
  exact ⟨catalog, parsed, result, shapes.1 _ result (Or.inl rfl), by decide +kernel⟩

end MatrixQuestion

end WorkflowKit
