import WorkflowKit.Proofs.Changes.Rules
import WorkflowKit.Proofs.Text.Order

namespace WorkflowKit.Changes

namespace Rules

variable {rules : Rules}

theorem known_congr {c d : List String} (same : ∀ path, path ≠ "" → (path ∈ c ↔ path ∈ d)) :
    rules.Known c ↔ rules.Known d := by
  constructor
  · intro known path member nonempty
    exact known path ((same path nonempty).mpr member) nonempty
  · intro known path member nonempty
    exact known path ((same path nonempty).mp member) nonempty

theorem mem_names_congr {c d : List String} (same : ∀ path, path ≠ "" → (path ∈ c ↔ path ∈ d))
    (name : String) : name ∈ rules.names c ↔ name ∈ rules.names d := by
  rw [mem_names_iff, mem_names_iff]
  constructor
  · rintro ⟨path, member, nonempty, called⟩
    exact ⟨path, (same path nonempty).mp member, nonempty, called⟩
  · rintro ⟨path, member, nonempty, called⟩
    exact ⟨path, (same path nonempty).mpr member, nonempty, called⟩

/-- The outcome depends on which paths have changed, and neither on their order nor on
repetitions. -/
theorem outcome_congr {c d : List String} (same : ∀ path, path ≠ "" → (path ∈ c ↔ path ∈ d)) :
    rules.outcome c = rules.outcome d := by
  by_cases known : rules.Known c
  · rw [outcome_of_known known, outcome_of_known ((known_congr same).mp known),
      sortedDistinct_congr (mem_names_congr same)]
  · have unknown : ¬ rules.Known d := fun other => known ((known_congr same).mpr other)
    rw [outcome_of_not_known known, outcome_of_not_known unknown]

theorem known_append (c d : List String) :
    rules.Known (c ++ d) ↔ rules.Known c ∧ rules.Known d := by
  simp only [Known, List.mem_append, or_imp, forall_and]

theorem names_append (c d : List String) :
    rules.names (c ++ d) = rules.names c ++ rules.names d := by
  simp [names]

/-- The names in a narrowed value are those that its paths call for. -/
theorem mem_entries_iff {changed : List String} {value : Setting}
    (detected : rules.outcome changed = .autodetected value) (name : String) :
    name ∈ value.entries ↔ name ∈ rules.names changed ∧ name ≠ "" := by
  rw [entries_of_known detected, List.mem_filter, mem_sortedDistinct, decide_eq_true_iff]

theorem entries_ascending {changed : List String} {value : Setting}
    (detected : rules.outcome changed = .autodetected value) :
    value.entries.Pairwise (· < ·) := by
  rw [entries_of_known detected]
  exact (sortedDistinct_ascending _).filter _

/-- Changes taken together are recognized exactly if each part of them is. -/
theorem autodetected_append_iff (c d : List String) :
    (∃ value, rules.outcome (c ++ d) = .autodetected value) ↔
      (∃ a, rules.outcome c = .autodetected a) ∧ ∃ b, rules.outcome d = .autodetected b := by
  rw [← known_iff, ← known_iff, ← known_iff, known_append]

/-- Changes taken together select what either part of them selects. -/
theorem mem_entries_append_iff {c d : List String} {a b value : Setting}
    (left : rules.outcome c = .autodetected a) (right : rules.outcome d = .autodetected b)
    (both : rules.outcome (c ++ d) = .autodetected value) (name : String) :
    name ∈ value.entries ↔ name ∈ a.entries ∨ name ∈ b.entries := by
  rw [mem_entries_iff both, mem_entries_iff left, mem_entries_iff right, names_append,
    List.mem_append, or_and_right]

/-- A value is defaulted to the whole, whatever the unknown path is. -/
theorem whole_of_defaulted {changed : List String} {value : Setting}
    (defaulted : rules.outcome changed = .defaulted value) : value = rules.whole := by
  have unknown := not_known_iff.mpr ⟨value, defaulted⟩
  rw [outcome_of_not_known unknown] at defaulted
  cases defaulted
  rfl

/-- A path that makes the value default still does so among more paths. -/
theorem defaulted_append {c d : List String} {value : Setting}
    (either : rules.outcome c = .defaulted value ∨ rules.outcome d = .defaulted value) :
    rules.outcome (c ++ d) = .defaulted value := by
  rcases either with left | right
  · have unknown := not_known_iff.mpr ⟨value, left⟩
    rw [whole_of_defaulted left]
    exact outcome_of_not_known fun known => unknown ((known_append c d).mp known).1
  · have unknown := not_known_iff.mpr ⟨value, right⟩
    rw [whole_of_defaulted right]
    exact outcome_of_not_known fun known => unknown ((known_append c d).mp known).2

/-- A change of which a part is all non-empty paths of another adds nothing to it. -/
theorem outcome_append_of_subset {c d : List String}
    (subset : ∀ path ∈ c, path ≠ "" → path ∈ d) : rules.outcome (c ++ d) = rules.outcome d := by
  refine outcome_congr fun path nonempty => ?_
  rw [List.mem_append]
  exact ⟨fun member => member.elim (subset path · nonempty) id, Or.inr⟩

end Rules

/-- Holds of a narrowing that only grows with the set of the changed paths. Two changes together are
known when both are, and then call for what either calls for; otherwise all that was requested is
left, and no further path narrows it again. -/
structure MonotoneInPaths (narrowed : List String → Outcome) : Prop where
  congr : ∀ c d, (∀ path, path ≠ "" → (path ∈ c ↔ path ∈ d)) → narrowed c = narrowed d
  total : ∀ c, (∃ value, narrowed c = .autodetected value) ∨ ∃ value, narrowed c = .defaulted value
  append : ∀ c d, (∃ value, narrowed (c ++ d) = .autodetected value) ↔
    (∃ a, narrowed c = .autodetected a) ∧ ∃ b, narrowed d = .autodetected b
  entries : ∀ c d a b value, narrowed c = .autodetected a → narrowed d = .autodetected b →
    narrowed (c ++ d) = .autodetected value →
    value.entries.Pairwise (fun x y => Octets.ofText x < Octets.ofText y) ∧
      ∀ entry, entry ∈ value.entries ↔ entry ∈ a.entries ∨ entry ∈ b.entries
  defaulted : ∀ c d value, narrowed c = .defaulted value ∨ narrowed d = .defaulted value →
    narrowed (c ++ d) = .defaulted value
  grows : ∀ c d b, (∀ path ∈ c, path ≠ "" → path ∈ d) → narrowed d = .autodetected b →
    ∃ a, narrowed c = .autodetected a ∧ ∀ entry ∈ a.entries, entry ∈ b.entries
  stays : ∀ c d value, (∀ path ∈ c, path ≠ "" → path ∈ d) → narrowed c = .defaulted value →
    narrowed d = .defaulted value

/-- The laws hold of every set of rules that selects names path by path. -/
theorem Rules.monotone (rules : Rules) : MonotoneInPaths rules.outcome where
  congr _ _ same := outcome_congr same
  total c := by
    by_cases known : rules.Known c
    · exact Or.inl (known_iff.mp known)
    · exact Or.inr (not_known_iff.mp known)
  append := autodetected_append_iff
  entries c d a b value left right both := by
    refine ⟨?_, mem_entries_append_iff left right both⟩
    simp only [Octets.ofText_lt_iff]
    exact entries_ascending both
  defaulted _ _ _ either := defaulted_append either
  grows c d b subset detected := by
    have both : rules.outcome (c ++ d) = .autodetected b := by
      rw [outcome_append_of_subset subset, detected]
    obtain ⟨a, left⟩ := ((autodetected_append_iff c d).mp ⟨b, both⟩).1
    refine ⟨a, left, fun entry member => ?_⟩
    exact (mem_entries_append_iff left detected both entry).mpr (Or.inl member)
  stays c d value subset defaulted := by
    rw [← outcome_append_of_subset subset]
    exact defaulted_append (Or.inl defaulted)

/-- Holds of a key whose values are narrowed, with a value of the shape that it needs. -/
def Narrowable (key : String) (value : Setting) : Prop :=
  (key = apisKey ∧ ∃ requested, value = .text requested) ∨
    (key = platformKey ∧ ∃ requested, value = .list requested)

/-- Other values are left as they are. -/
theorem narrow_of_not_narrowable {key : String} {value : Setting}
    (others : ¬ Narrowable key value) (changed : List String) :
    (narrow key value changed).1 = .untouched value := by
  unfold narrow
  split
  · rename_i apis
    cases value with
    | list entries => rfl
    | text requested => exact absurd (Or.inl ⟨apis, requested, rfl⟩) others
  · split
    · rename_i platform
      cases value with
      | list requested => exact absurd (Or.inr ⟨platform, requested, rfl⟩) others
      | text text => rfl
    · rfl

/-- The outcome is decided by what the changed paths are, for every key and value. -/
theorem narrow_congr (key : String) (value : Setting) {c d : List String}
    (same : ∀ path, path ≠ "" → (path ∈ c ↔ path ∈ d)) :
    (narrow key value c).1 = (narrow key value d).1 := by
  by_cases narrowable : Narrowable key value
  · rcases narrowable with ⟨rfl, requested, rfl⟩ | ⟨rfl, requested, rfl⟩
    · rw [narrow_apis, narrow_apis, Rules.outcome_congr same]
    · rw [narrow_platforms, narrow_platforms, Rules.outcome_congr same]
  · rw [narrow_of_not_narrowable narrowable, narrow_of_not_narrowable narrowable]

/-- Narrowing is monotone in the set of the changed paths. -/
theorem narrow_monotone (key : String) (value : Setting) (narrowable : Narrowable key value) :
    MonotoneInPaths fun changed => (narrow key value changed).1 := by
  rcases narrowable with ⟨rfl, requested, rfl⟩ | ⟨rfl, requested, rfl⟩
  · simp only [narrow_apis]
    exact Rules.monotone _
  · simp only [narrow_platforms]
    exact Rules.monotone _

/-- A change of one interface leaves a place for that of another. -/
theorem narrow_storage_grows :
    Narrowable apisKey (.text "gma,storage") ∧
      ∃ a, (narrow apisKey (.text "gma,storage") ["", "storage/src/ios.mm"]).1 = .autodetected a ∧
        ∀ entry ∈ a.entries, entry ∈ (Setting.text "gma,storage").entries := by
  have narrowable : Narrowable apisKey (.text "gma,storage") := Or.inl ⟨rfl, _, rfl⟩
  refine ⟨narrowable, ?_⟩
  exact (narrow_monotone apisKey (.text "gma,storage") narrowable).grows _
    ["gma/CMakeLists.txt", "storage/src/ios.mm"] _ (by decide) (by decide +kernel)

end WorkflowKit.Changes
