import WorkflowKit.Action

namespace WorkflowKit.Action

variable {α β : Type}

@[simp]
theorem result_done (value : α) : (done value).result = .ok value := rfl

@[simp]
theorem result_pure (value : α) : (pure value : Action α).result = .ok value := rfl

@[simp]
theorem result_log (told : List Event) : (log told).result = .ok () := rfl

@[simp]
theorem result_remark (line : Option String) : (remark line).result = .ok () := rfl

@[simp]
theorem events_done (value : α) : (done value).events = [] := rfl

@[simp]
theorem events_pure (value : α) : (pure value : Action α).events = [] := rfl

@[simp]
theorem events_fail (failure : Failure) : (fail failure : Action α).events = [] := rfl

@[simp]
theorem events_log (told : List Event) : (log told).events = told := by
  rw [log, events, List.filterMap_map]
  exact List.filterMap_some

@[simp]
theorem events_remark (line : Option String) : (remark line).events = [] := by
  cases line <;> rfl

/-- Notices and runs of git of the second step follow those of the first. -/
theorem bind_of_ok {first : Action α} {next : α → Action β} {a : α}
    (succeeded : first.result = .ok a) :
    first >>= next =
      ⟨(next a).result, first.notices ++ (next a).notices,
        first.gitRuns ++ (next a).gitRuns⟩ := by
  simp only [bind, andThen, succeeded]

/-- A step that fails ends the action, and what was told before it stays told. -/
theorem bind_of_error {first : Action α} {next : α → Action β} {failure : Failure}
    (failed : first.result = .error failure) :
    first >>= next = ⟨.error failure, first.notices, first.gitRuns⟩ := by
  simp only [bind, andThen, failed]

@[simp]
theorem done_bind (a : α) (next : α → Action β) : done a >>= next = next a := rfl

/-- Making something of a result tells nothing more. -/
theorem bind_pure (first : Action α) (make : α → β) :
    (first >>= fun a => pure (make a)) =
      ⟨first.result.map make, first.notices, first.gitRuns⟩ := by
  cases result : first.result with
  | error failure =>
    rw [bind_of_error result]
    rfl
  | ok a =>
    rw [bind_of_ok result]
    simp only [pure, done, List.append_nil, Except.map]

theorem gitRuns_bind_eq_nil {first : Action α} {next : α → Action β}
    (quiet : first.gitRuns = []) (quietNext : ∀ a, (next a).gitRuns = []) :
    (first >>= next).gitRuns = [] := by
  cases result : first.result with
  | error failure => rw [bind_of_error result, quiet]
  | ok a => rw [bind_of_ok result, quiet, quietNext, List.append_nil]

/-- One action after another succeeds when both do. -/
theorem result_bind_ok_iff {first : Action α} {next : α → Action β} {b : β} :
    (first >>= next).result = .ok b ↔ ∃ a, first.result = .ok a ∧ (next a).result = .ok b := by
  obtain ⟨result, notices, gitRuns⟩ := first
  cases result with
  | error failure => simp [bind, andThen]
  | ok a => simp [bind, andThen]

/-- After a failure nothing more is told. -/
theorem mem_events_bind {first : Action α} {next : α → Action β} {event : Event} :
    event ∈ (first >>= next).events ↔
      event ∈ first.events ∨ ∃ a, first.result = .ok a ∧ event ∈ (next a).events := by
  obtain ⟨result, notices, gitRuns⟩ := first
  cases result with
  | error failure => simp [bind, andThen, events]
  | ok a => simp [bind, andThen, events, List.filterMap_append]

end WorkflowKit.Action
