import WorkflowKit.Changes.Narrowing
import WorkflowKit.Proofs.SortedMap
import WorkflowKit.Proofs.Text.Order
import WorkflowKit.Proofs.Text.Pieces

namespace WorkflowKit

/-- The entries of a value that are not empty: those of a list, or those of a text with commas. -/
def Setting.entries : Setting → List String
  | list entries => entries.filter (· ≠ "")
  | text value => (Text.pieces ',' value).filter (· ≠ "")

namespace Changes

/-- Names without repetition are sorted by their octets. -/
theorem sortedDistinct_octets (names : List String) :
    (sortedDistinct names).Pairwise (fun a b => Octets.ofText a < Octets.ofText b) := by
  simp only [Octets.ofText_lt_iff]
  exact sortedDistinct_ascending names

/-- What paths call for, or the first path of which that is unknown. -/
def select (called : String → Option (List String)) : List String → Except String (List String)
  | [] => .ok []
  | path :: paths =>
    match called path with
    | none => .error path
    | some names => (select called paths).map (names ++ ·)

/-- The loop stops at the first unknown path; without one it has collected the names of all. -/
theorem select_eq (called : String → Option (List String)) (paths : List String) :
    select called paths =
      match paths.find? fun path => (called path).isNone with
      | some path => .error path
      | none => .ok (paths.flatMap fun path => (called path).getD []) := by
  induction paths with
  | nil => rfl
  | cons path paths ih =>
    cases names : called path with
    | none => simp [select, names]
    | some names' =>
      rw [select, names, ih]
      simp only [List.find?_cons, names, Option.isNone_some, List.flatMap_cons, Option.getD_some]
      cases paths.find? fun path => (called path).isNone <;> rfl

/-- The interfaces that a path calls for. -/
def apisOf? (requested : List String) (path : String) : Option (List String) :=
  if ignoredDirectories.contains (topDirectory path) then some []
  else if requested.contains (topDirectory path) then
    some (dependents (topDirectory path) ++ [topDirectory path])
  else none

/-- The platforms that a path calls for. -/
def platformsOf? (requested : List String) (path : String) : Option (List String) :=
  if (platformsOf requested path).isEmpty && !hasMark ignoredMarks path then none
  else some (platformsOf requested path)

theorem selectApis_eq (requested paths : List String) :
    selectApis requested paths = select (apisOf? requested) paths := by
  induction paths with
  | nil => rfl
  | cons path paths ih =>
    simp only [selectApis, select, apisOf?, ih]
    split
    · cases select (apisOf? requested) paths <;> rfl
    · split
      · simp
      · rfl

theorem selectPlatforms_eq (requested paths : List String) :
    selectPlatforms requested paths = select (platformsOf? requested) paths := by
  induction paths with
  | nil => rfl
  | cons path paths ih =>
    simp only [selectPlatforms, select, platformsOf?, ih]
    split <;> rfl

/-- How a value is narrowed. -/
structure Rules where
  /-- The names that a path calls for, nothing if the path is unknown. -/
  called : String → Option (List String)
  /-- The value that is kept when a path is unknown. -/
  whole : Setting
  /-- The value that consists of some names. -/
  packed : List String → Setting
  /-- Names that paths call for are found again in the value. -/
  entries_packed : ∀ names, (∀ name ∈ names, ∃ path given, called path = some given ∧ name ∈ given) →
    (packed names).entries = names.filter (· ≠ "")

theorem comma_not_mem_of_apisOf? {requested path name : String} {given : List String}
    (called : apisOf? (Text.pieces ',' requested) path = some given) (member : name ∈ given) :
    ',' ∉ name.toList := by
  unfold apisOf? at called
  split at called
  · cases called
    cases member
  · split at called
    · rename_i requestedDirectory
      cases called
      rcases List.mem_append.mp member with dependent | own
      · unfold dependents at dependent
        split at dependent
        · have plain : ∀ name ∈ ["auth", "functions", "database", "firestore", "storage"],
              ',' ∉ name.toList := by decide
          exact plain name dependent
        · cases dependent
      · rw [List.mem_singleton.mp own]
        exact Text.not_mem_of_mem_pieces (List.contains_iff_mem.mp requestedDirectory)
    · cases called

namespace Rules

/-- The rules for interfaces. No name that they call for has a comma, so that names can be told
apart in the text. -/
def ofApis (requested : String) : Rules where
  called := apisOf? (Text.pieces ',' requested)
  whole := .text requested
  packed names := .text (Text.joined ',' names)
  entries_packed names origin := by
    have free : ∀ name ∈ names, ',' ∉ name.toList := by
      intro name member
      obtain ⟨path, given, called, inside⟩ := origin name member
      exact comma_not_mem_of_apisOf? called inside
    by_cases empty : names = []
    · subst empty
      decide
    · rw [Setting.entries, Text.pieces_joined free empty]

/-- The rules for platforms. -/
def ofPlatforms (requested : List String) : Rules where
  called := platformsOf? requested
  whole := .list (sortedDistinct requested)
  packed := .list
  entries_packed _ _ := rfl

@[simp]
theorem ofApis_called (requested : String) :
    (ofApis requested).called = apisOf? (Text.pieces ',' requested) := rfl

@[simp]
theorem ofPlatforms_called (requested : List String) :
    (ofPlatforms requested).called = platformsOf? requested := rfl

variable (rules : Rules)

/-- What becomes of the value when some paths have changed. -/
def outcome (changed : List String) : Outcome :=
  match select rules.called (changed.filter (· ≠ "")) with
  | .ok names => .autodetected (rules.packed (sortedDistinct names))
  | .error _ => .defaulted rules.whole

/-- Holds of changes in which no path is unknown. -/
def Known (changed : List String) : Prop :=
  ∀ path ∈ changed, path ≠ "" → (rules.called path).isSome

/-- All names that some paths call for. -/
def names (changed : List String) : List String :=
  (changed.filter (· ≠ "")).flatMap fun path => (rules.called path).getD []

variable {rules}

/-- If every path is known, the outcome has the names that the paths call for, in order. -/
theorem outcome_of_known {changed : List String} (known : rules.Known changed) :
    rules.outcome changed = .autodetected (rules.packed (sortedDistinct (rules.names changed))) := by
  have none : (changed.filter (· ≠ "")).find? (fun path => (rules.called path).isNone) = none := by
    rw [List.find?_eq_none]
    intro path member
    obtain ⟨inside, nonempty⟩ := List.mem_filter.mp member
    simpa [Option.isSome_iff_ne_none] using known path inside (by simpa using nonempty)
  rw [outcome, select_eq, none]
  rfl

/-- A single path that is not known makes the whole value come back. -/
theorem outcome_of_not_known {changed : List String} (unknown : ¬ rules.Known changed) :
    rules.outcome changed = .defaulted rules.whole := by
  rw [outcome, select_eq]
  cases found : (changed.filter (· ≠ "")).find? (fun path => (rules.called path).isNone) with
  | some path => rfl
  | none =>
    refine absurd (fun path inside nonempty => ?_) unknown
    have member : path ∈ changed.filter (· ≠ "") :=
      List.mem_filter.mpr ⟨inside, by simpa using nonempty⟩
    simpa [Option.isSome_iff_ne_none] using List.find?_eq_none.mp found path member

theorem known_iff {changed : List String} :
    rules.Known changed ↔ ∃ value, rules.outcome changed = .autodetected value := by
  constructor
  · intro known
    exact ⟨_, outcome_of_known known⟩
  · rintro ⟨value, detected⟩
    by_contra unknown
    rw [outcome_of_not_known unknown] at detected
    cases detected

theorem not_known_iff {changed : List String} :
    ¬ rules.Known changed ↔ ∃ value, rules.outcome changed = .defaulted value := by
  constructor
  · intro unknown
    exact ⟨_, outcome_of_not_known unknown⟩
  · rintro ⟨value, defaulted⟩ known
    rw [outcome_of_known known] at defaulted
    cases defaulted

theorem mem_names_iff {changed : List String} {name : String} :
    name ∈ rules.names changed ↔
      ∃ path ∈ changed, path ≠ "" ∧ ∃ given, rules.called path = some given ∧ name ∈ given := by
  simp only [names, List.mem_flatMap, List.mem_filter, decide_eq_true_eq, and_assoc]
  refine exists_congr fun path => and_congr_right fun _ => and_congr_right fun _ => ?_
  cases rules.called path <;> simp

/-- The entries of a narrowed value are the names that the paths call for, in ascending order. -/
theorem entries_of_known {changed : List String} {value : Setting}
    (detected : rules.outcome changed = .autodetected value) :
    value.entries = (sortedDistinct (rules.names changed)).filter (· ≠ "") := by
  have known := known_iff.mpr ⟨value, detected⟩
  rw [outcome_of_known known] at detected
  cases detected
  refine rules.entries_packed _ fun name member => ?_
  obtain ⟨path, _, _, given, called, inside⟩ :=
    mem_names_iff.mp ((mem_sortedDistinct _ _).mp member)
  exact ⟨path, given, called, inside⟩

/-- The first of the changed paths that is unknown. -/
def firstUnknown? (rules : Rules) (changed : List String) : Option String :=
  (changed.filter (· ≠ "")).find? fun path => (rules.called path).isNone

/-- The path that is told of is the first of which the rules tell nothing. -/
theorem firstUnknown?_eq_some_iff {changed : List String} {path : String} :
    rules.firstUnknown? changed = some path ↔
      (path ≠ "" ∧ rules.called path = none) ∧
        ∃ before after, changed = before ++ path :: after ∧
          ∀ earlier ∈ before, earlier ≠ "" → rules.called earlier ≠ none := by
  rw [firstUnknown?, List.find?_filter, List.find?_eq_some_iff_append]
  simp [or_iff_not_imp_left]

theorem firstUnknown?_eq_none_iff {changed : List String} :
    rules.firstUnknown? changed = none ↔ rules.Known changed := by
  simp [firstUnknown?, Known, Option.isSome_iff_ne_none]

/-- If not all paths are known, there is a first one that is not. -/
theorem firstUnknown?_of_not_known {changed : List String} {Unknown : String → Prop}
    (stops : ∀ path, Unknown path ↔ path ≠ "" ∧ rules.called path = none)
    (unknown : ¬ rules.Known changed) :
    ∃ before path after, changed = before ++ path :: after ∧ Unknown path ∧
      (∀ earlier ∈ before, ¬ Unknown earlier) ∧ rules.firstUnknown? changed = some path := by
  cases found : rules.firstUnknown? changed with
  | none => exact absurd (firstUnknown?_eq_none_iff.mp found) unknown
  | some path =>
    obtain ⟨stopped, before, after, split, first⟩ := firstUnknown?_eq_some_iff.mp found
    refine ⟨before, path, after, split, (stops path).mpr stopped, fun earlier member stopped' => ?_, rfl⟩
    obtain ⟨nonempty, none⟩ := (stops earlier).mp stopped'
    exact first earlier member nonempty none

end Rules

theorem narrow_apis (requested : String) (changed : List String) :
    (narrow apisKey (.text requested) changed).1 = (Rules.ofApis requested).outcome changed := by
  simp only [narrow, if_true, narrowApis, Rules.outcome, Rules.ofApis, selectApis_eq]
  cases select (apisOf? (Text.pieces ',' requested)) (changed.filter (· ≠ "")) <;> rfl

theorem narrow_platforms (requested changed : List String) :
    (narrow platformKey (.list requested) changed).1 =
      (Rules.ofPlatforms requested).outcome changed := by
  have others : ¬ platformKey = apisKey := by decide
  simp only [narrow, others, if_true, if_false, narrowPlatforms, Rules.outcome, Rules.ofPlatforms,
    selectPlatforms_eq]
  cases select (platformsOf? requested) (changed.filter (· ≠ "")) <;> rfl

/-- What is told about the first of the paths that is unknown. -/
def told (remark : String → String) (unknown : Option String) : List Event :=
  unknown.toList.map fun path => ⟨.debug, .changes, remark path⟩

theorem narrow_apis_events (requested : String) (changed : List String) :
    (narrow apisKey (.text requested) changed).2 =
      told (fun path => s!"{path} is outside the requested API directories")
        ((Rules.ofApis requested).firstUnknown? changed) := by
  simp only [narrow, if_true, narrowApis, selectApis_eq, select_eq, Rules.firstUnknown?, Rules.ofApis]
  cases (changed.filter (· ≠ "")).find? fun path =>
    (apisOf? (Text.pieces ',' requested) path).isNone <;> rfl

theorem narrow_platforms_events (requested changed : List String) :
    (narrow platformKey (.list requested) changed).2 =
      told (fun path => s!"{path} matches no platform rule")
        ((Rules.ofPlatforms requested).firstUnknown? changed) := by
  have others : ¬ platformKey = apisKey := by decide
  simp only [narrow, others, if_true, if_false, narrowPlatforms, selectPlatforms_eq, select_eq,
    Rules.firstUnknown?, Rules.ofPlatforms]
  cases (changed.filter (· ≠ "")).find? fun path => (platformsOf? requested path).isNone <;> rfl

end Changes

end WorkflowKit
