import WorkflowKit.Proofs.Changes.Rules

namespace WorkflowKit.Changes

/-- Holds of a path and its directory at the top, unless changes in there need no tests. -/
def Concerns (path directory : String) : Prop :=
  path ≠ "" ∧ (Text.pieces '/' path).head? = some directory ∧
    directory ∉ ["external", "release_build_files"]

/-- Holds of the directories in which changes need tests. -/
def ChangedDirectory (changed : List String) (directory : String) : Prop :=
  ∃ path ∈ changed, Concerns path directory

/-- Holds of a path in a directory that was not requested. -/
def IsOutside (requested : List String) (path : String) : Prop :=
  ∃ directory, Concerns path directory ∧ directory ∉ requested

/-- Holds of the interfaces that some changes call for: those in whose directories they are, and
what depends on one of them. -/
def CalledFor (changed : List String) (api : String) : Prop :=
  ChangedDirectory changed api ∨
    ChangedDirectory changed "auth" ∧
      api ∈ ["auth", "database", "firestore", "functions", "storage"]

theorem concerns_iff {path directory : String} :
    Concerns path directory ↔
      path ≠ "" ∧ topDirectory path = directory ∧ topDirectory path ∉ ignoredDirectories := by
  rw [Concerns, Text.head?_pieces, Option.some.injEq, topDirectory]
  constructor
  · rintro ⟨nonempty, rfl, counts⟩
    exact ⟨nonempty, rfl, counts⟩
  · rintro ⟨nonempty, rfl, counts⟩
    exact ⟨nonempty, rfl, counts⟩

theorem isOutside_iff {requested : List String} {path : String} :
    IsOutside requested path ↔ path ≠ "" ∧ apisOf? requested path = none := by
  have unknown : apisOf? requested path = none ↔
      topDirectory path ∉ ignoredDirectories ∧ topDirectory path ∉ requested := by
    simp only [apisOf?, List.contains_iff_mem]
    split_ifs with ignored named <;> simp [*]
  rw [unknown]
  constructor
  · rintro ⟨directory, concerns, outside⟩
    obtain ⟨nonempty, rfl, counts⟩ := concerns_iff.mp concerns
    exact ⟨nonempty, counts, outside⟩
  · rintro ⟨nonempty, counts, outside⟩
    exact ⟨topDirectory path, concerns_iff.mpr ⟨nonempty, rfl, counts⟩, outside⟩

theorem mem_dependents_iff {directory api : String} :
    api ∈ dependents directory ↔
      directory = "auth" ∧ api ∈ ["auth", "database", "firestore", "functions", "storage"] := by
  unfold dependents
  split_ifs with auth
  · have same : ∀ x, x ∈ ["auth", "functions", "database", "firestore", "storage"] ↔
        x ∈ ["auth", "database", "firestore", "functions", "storage"] := by
      intro x
      simp only [List.mem_cons, List.not_mem_nil, or_false]
      tauto
    simp only [auth, true_and, same]
  · simp [auth]

/-- A path of a requested directory calls for that directory and what depends on it. -/
theorem exists_apisOf?_iff {requested : List String} {path api : String} :
    (path ≠ "" ∧ ∃ given, apisOf? requested path = some given ∧ api ∈ given) ↔
      ∃ directory ∈ requested, Concerns path directory ∧
        (api = directory ∨ directory = "auth" ∧
          api ∈ ["auth", "database", "firestore", "functions", "storage"]) := by
  simp only [← mem_dependents_iff]
  constructor
  · rintro ⟨nonempty, given, called, member⟩
    simp only [apisOf?, List.contains_iff_mem] at called
    split_ifs at called with ignored named
    · cases called
      cases member
    · cases called
      refine ⟨topDirectory path, named, concerns_iff.mpr ⟨nonempty, rfl, ignored⟩, ?_⟩
      rcases List.mem_append.mp member with dependent | own
      · exact Or.inr dependent
      · exact Or.inl (List.mem_singleton.mp own)
  · rintro ⟨directory, named, concerns, selected⟩
    obtain ⟨nonempty, rfl, counts⟩ := concerns_iff.mp concerns
    refine ⟨nonempty, dependents (topDirectory path) ++ [topDirectory path], ?_, ?_⟩
    · simp only [apisOf?, List.contains_iff_mem, counts, named, if_true, if_false]
    · rw [List.mem_append, List.mem_singleton]
      exact selected.symm

section

variable {requested : String} {changed : List String}

theorem known_ofApis_iff :
    (Rules.ofApis requested).Known changed ↔
      ∀ directory, ChangedDirectory changed directory → directory ∈ Text.pieces ',' requested := by
  constructor
  · rintro known directory ⟨path, member, concerns⟩
    by_contra outside
    obtain ⟨nonempty, unknown⟩ := isOutside_iff.mp ⟨directory, concerns, outside⟩
    have called := known path member nonempty
    rw [Rules.ofApis_called, unknown] at called
    cases called
  · intro inside path member nonempty
    rw [Option.isSome_iff_ne_none]
    intro unknown
    obtain ⟨directory, concerns, outside⟩ := isOutside_iff.mpr ⟨nonempty, unknown⟩
    exact outside (inside directory ⟨path, member, concerns⟩)

/-- The names that the rules select are those that a change calls for: its directory, and the
dependents of this. -/
theorem mem_names_ofApis_iff (known : (Rules.ofApis requested).Known changed) (api : String) :
    api ∈ (Rules.ofApis requested).names changed ↔ CalledFor changed api := by
  have inside := known_ofApis_iff.mp known
  rw [Rules.mem_names_iff]
  constructor
  · rintro ⟨path, member, called⟩
    obtain ⟨directory, _, concerns, rfl | ⟨rfl, dependent⟩⟩ := exists_apisOf?_iff.mp called
    · exact Or.inl ⟨path, member, concerns⟩
    · exact Or.inr ⟨⟨path, member, concerns⟩, dependent⟩
  · rintro (⟨path, member, concerns⟩ | ⟨⟨path, member, concerns⟩, dependent⟩)
    · refine ⟨path, member, exists_apisOf?_iff.mpr ?_⟩
      exact ⟨api, inside api ⟨path, member, concerns⟩, concerns, Or.inl rfl⟩
    · refine ⟨path, member, exists_apisOf?_iff.mpr ?_⟩
      exact ⟨"auth", inside "auth" ⟨path, member, concerns⟩, concerns, Or.inr ⟨rfl, dependent⟩⟩

/-- The value defaults exactly if a changed directory was not requested. -/
theorem not_known_ofApis_iff :
    ¬ (Rules.ofApis requested).Known changed ↔
      ∃ directory, ChangedDirectory changed directory ∧ directory ∉ Text.pieces ',' requested := by
  rw [known_ofApis_iff]
  simp only [not_forall, exists_prop]

/-- Changes in requested directories only: the selection is what they call for. -/
theorem narrow_apis_of_known (known : (Rules.ofApis requested).Known changed) :
    ∃ names, narrow apisKey (.text requested) changed =
        (.autodetected (.text (Text.joined ',' names)), []) ∧
      names.Pairwise (fun a b => Octets.ofText a < Octets.ofText b) ∧
      (∀ api, api ∈ names ↔ CalledFor changed api) ∧ ∀ api ∈ names, ',' ∉ api.toList := by
  refine ⟨sortedDistinct ((Rules.ofApis requested).names changed), ?_, sortedDistinct_octets _, ?_, ?_⟩
  · refine Prod.ext ?_ ?_
    · rw [narrow_apis, Rules.outcome_of_known known]
      rfl
    · rw [narrow_apis_events, Rules.firstUnknown?_eq_none_iff.mpr known]
      rfl
  · intro api
    rw [mem_sortedDistinct, mem_names_ofApis_iff known]
  · intro api member
    obtain ⟨path, _, _, given, called, inside⟩ :=
      Rules.mem_names_iff.mp ((mem_sortedDistinct _ _).mp member)
    exact comma_not_mem_of_apisOf? called inside

/-- A value that defaults is the text that was given, neither sorted nor without repetitions. -/
theorem narrow_apis_of_not_known (unknown : ¬ (Rules.ofApis requested).Known changed) :
    (narrow apisKey (.text requested) changed).1 = .defaulted (.text requested) := by
  rw [narrow_apis, Rules.outcome_of_not_known unknown]
  rfl

theorem narrow_apis_defaulted_iff :
    (narrow apisKey (.text requested) changed).1 = .defaulted (.text requested) ↔
      ¬ (Rules.ofApis requested).Known changed := by
  refine ⟨fun defaulted known => ?_, narrow_apis_of_not_known⟩
  obtain ⟨names, detected, _⟩ := narrow_apis_of_known known
  rw [detected] at defaulted
  cases defaulted

/-- The first path outside of the requested directories is the one that is told of. -/
theorem narrow_apis_events_of_not_known (unknown : ¬ (Rules.ofApis requested).Known changed) :
    ∃ before path after, changed = before ++ path :: after ∧
      IsOutside (Text.pieces ',' requested) path ∧
      (∀ earlier ∈ before, ¬ IsOutside (Text.pieces ',' requested) earlier) ∧
      (narrow apisKey (.text requested) changed).2 =
        [⟨.debug, .changes, s!"{path} is outside the requested API directories"⟩] := by
  obtain ⟨before, path, after, split, outside, earlier, found⟩ :=
    Rules.firstUnknown?_of_not_known (fun _ => isOutside_iff) unknown
  refine ⟨before, path, after, split, outside, earlier, ?_⟩
  rw [narrow_apis_events, found]
  rfl

/-- The entries of the text to which the requested one is narrowed. -/
def narrowedApis (requested : String) (changed : List String) : List String :=
  Text.pieces ',' (Outcome.shown (narrow apisKey (.text requested) changed).1.value)

theorem narrowedApis_of_not_known (unknown : ¬ (Rules.ofApis requested).Known changed) :
    narrowedApis requested changed = Text.pieces ',' requested := by
  rw [narrowedApis, narrow_apis_of_not_known unknown]
  rfl

theorem mem_narrowedApis_of_calledFor (known : (Rules.ofApis requested).Known changed) {api : String}
    (called : CalledFor changed api) : api ∈ narrowedApis requested changed := by
  obtain ⟨names, detected, _, selected, free⟩ := narrow_apis_of_known known
  have member := (selected api).mpr called
  have entries : narrowedApis requested changed = names := by
    rw [narrowedApis, detected]
    exact Text.pieces_joined free (List.ne_nil_of_mem member)
  rwa [entries]

theorem calledFor_of_mem_narrowedApis (known : (Rules.ofApis requested).Known changed) {api : String}
    (nonempty : api ≠ "") (member : api ∈ narrowedApis requested changed) :
    CalledFor changed api := by
  obtain ⟨names, detected, _, selected, free⟩ := narrow_apis_of_known known
  have entries : narrowedApis requested changed = Text.pieces ',' (Text.joined ',' names) := by
    rw [narrowedApis, detected]
    rfl
  rw [entries] at member
  -- Without names the text is empty, and has an empty entry all the same.
  by_cases none : names = []
  · rw [none, Text.pieces_joined_nil, List.mem_singleton] at member
    exact absurd member nonempty
  · rw [Text.pieces_joined free none] at member
    exact (selected api).mp member

/-- No requested interface is dropped if its directory has changed. -/
theorem mem_narrowedApis_of_changed {api : String} (named : api ∈ Text.pieces ',' requested)
    (changes : ChangedDirectory changed api) : api ∈ narrowedApis requested changed := by
  by_cases known : (Rules.ofApis requested).Known changed
  · exact mem_narrowedApis_of_calledFor known (Or.inl changes)
  · rwa [narrowedApis_of_not_known known]

/-- What was not requested is only added as a dependent. -/
theorem dependent_of_mem_narrowedApis {api : String} (nonempty : api ≠ "")
    (member : api ∈ narrowedApis requested changed) (outside : api ∉ Text.pieces ',' requested) :
    "auth" ∈ Text.pieces ',' requested ∧ ChangedDirectory changed "auth" ∧
      api ∈ ["database", "firestore", "functions", "storage"] := by
  by_cases known : (Rules.ofApis requested).Known changed
  · have inside := known_ofApis_iff.mp known
    rcases calledFor_of_mem_narrowedApis known nonempty member with changes | ⟨auth, dependent⟩
    · exact absurd (inside api changes) outside
    · refine ⟨inside "auth" auth, auth, ?_⟩
      rcases List.mem_cons.mp dependent with rfl | other
      · exact absurd (inside "auth" auth) outside
      · exact other
  · rw [narrowedApis_of_not_known known] at member
    exact absurd member outside

end

/-- The text that was requested stays as it is exactly if a change concerns a directory that it does
not name, and the first such path is told of. Otherwise the text names, in the order of their octets,
what the changes call for. No requested interface is dropped whose directory they concern, and one
that was not requested is only added as a dependent. -/
theorem narrow_apis_exact (requested : String) (changed : List String) :
    ((narrow apisKey (.text requested) changed).1 = .defaulted (.text requested) ↔
      ∃ directory, ChangedDirectory changed directory ∧ directory ∉ Text.pieces ',' requested) ∧
    ((∀ directory, ChangedDirectory changed directory → directory ∈ Text.pieces ',' requested) →
      ∃ names, narrow apisKey (.text requested) changed =
          (.autodetected (.text (Text.joined ',' names)), []) ∧
        names.Pairwise (fun a b => Octets.ofText a < Octets.ofText b) ∧
        ∀ api, api ∈ names ↔ CalledFor changed api) ∧
    ((narrow apisKey (.text requested) changed).1 = .defaulted (.text requested) →
      ∃ before path after, changed = before ++ path :: after ∧
        IsOutside (Text.pieces ',' requested) path ∧
        (∀ earlier ∈ before, ¬ IsOutside (Text.pieces ',' requested) earlier) ∧
        (narrow apisKey (.text requested) changed).2 =
          [⟨.debug, .changes, s!"{path} is outside the requested API directories"⟩]) ∧
    (∀ api ∈ Text.pieces ',' requested, ChangedDirectory changed api →
      api ∈ narrowedApis requested changed) ∧
    ∀ api ∈ narrowedApis requested changed, api ≠ "" → api ∉ Text.pieces ',' requested →
      "auth" ∈ Text.pieces ',' requested ∧ ChangedDirectory changed "auth" ∧
        api ∈ ["database", "firestore", "functions", "storage"] := by
  refine ⟨narrow_apis_defaulted_iff.trans not_known_ofApis_iff, fun inside => ?_,
    fun defaulted => ?_, fun api => mem_narrowedApis_of_changed,
    fun api member nonempty => dependent_of_mem_narrowedApis nonempty member⟩
  · obtain ⟨names, detected, ascending, selected, _⟩ :=
      narrow_apis_of_known (known_ofApis_iff.mpr inside)
    exact ⟨names, detected, ascending, selected⟩
  · exact narrow_apis_events_of_not_known (narrow_apis_defaulted_iff.mp defaulted)

/-- A changed path of the interface that others depend on calls for them, requested or not. -/
example : narrow apisKey (.text "gma,auth") ["auth/src/user.cc", "external/z/a", "gma"] =
    (.autodetected (.text "auth,database,firestore,functions,gma,storage"), []) := by
  decide +kernel

end WorkflowKit.Changes
