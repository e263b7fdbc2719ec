import WorkflowKit.Proofs.Changes.Marks
import WorkflowKit.Proofs.Changes.Monotone
import Mathlib.Tactic.MkIffOfInductiveProp

namespace WorkflowKit.Changes

/-- Holds of the paths in which changes need no tests. -/
def IsIgnorable (path : String) : Prop :=
  "external/".toList <+: path.toList ∨ "release_build_files/".toList <+: path.toList ∨
    ContainsAnyCase "readme" path

def IsAndroidPath (path : String) : Prop :=
  ContainsAnyCase "android" path ∨ ".java".toList <:+ path.toList ∨ Contains "gradle" path

def IsIosPath (path : String) : Prop :=
  ContainsIosWord path ∨ ContainsAnyCase "apple" path ∨ ".mm".toList <:+ path.toList ∨
    ContainsAnyCase "xcode" path ∨ Contains "Pod" path

def IsDesktopPath (path : String) : Prop :=
  Contains "desktop" path

/-- The platforms that a path belongs to. -/
@[mk_iff]
inductive BelongsTo (path : String) : String → Prop
  | android : IsAndroidPath path → BelongsTo path "Android"
  | ios : IsIosPath path → BelongsTo path "iOS"
  | desktop : IsDesktopPath path → BelongsTo path "Desktop"

/-- Holds of the paths that end the narrowing. -/
def IsUnmatched (requested : List String) (path : String) : Prop :=
  path ≠ "" ∧ ¬ IsIgnorable path ∧ ∀ platform ∈ requested, ¬ BelongsTo path platform

theorem hasMark_ignored_iff (path : String) : hasMark ignoredMarks path ↔ IsIgnorable path := by
  simp only [hasMark, ignoredMarks, List.any_cons, List.any_nil, Bool.or_eq_true, Bool.false_eq_true,
    or_false, PathMark.found_start_iff,
    PathMark.found_withinAnyCase_iff "readme" (by simp), IsIgnorable]

/-- A path belongs to the platforms of which it has a mark. -/
theorem belongsTo_iff_hasMark {path platform : String} :
    BelongsTo path platform ↔
      ∃ marks, (platform, marks) ∈ platformMarks ∧ hasMark marks path := by
  have marked : (∃ marks, (platform, marks) ∈ platformMarks ∧ hasMark marks path) ↔
      platform = "Android" ∧ IsAndroidPath path ∨ platform = "iOS" ∧ IsIosPath path ∨
        platform = "Desktop" ∧ IsDesktopPath path := by
    simp only [platformMarks, List.mem_cons, List.not_mem_nil, or_false, Prod.mk.injEq, or_and_right,
      exists_or, and_assoc, exists_and_left, exists_eq_left, hasMark, List.any_cons, List.any_nil,
      Bool.or_eq_true, Bool.false_eq_true, PathMark.found_ending_iff, PathMark.found_within_iff,
      PathMark.found_ios_iff, PathMark.found_withinAnyCase_iff "android" (by simp),
      PathMark.found_withinAnyCase_iff "apple" (by simp),
      PathMark.found_withinAnyCase_iff "xcode" (by simp), IsAndroidPath, IsIosPath, IsDesktopPath]
  rw [marked, belongsTo_iff]
  tauto

/-- Of the platforms to which a path belongs, only those that were requested count. -/
theorem mem_platformsOf_iff {requested : List String} {path platform : String} :
    platform ∈ platformsOf requested path ↔ platform ∈ requested ∧ BelongsTo path platform := by
  rw [belongsTo_iff_hasMark, platformsOf, List.mem_map]
  simp only [List.mem_filter, Bool.and_eq_true, List.contains_iff_mem]
  constructor
  · rintro ⟨⟨name, marks⟩, ⟨member, named, marked⟩, rfl⟩
    exact ⟨named, marks, member, marked⟩
  · rintro ⟨named, marks, member, marked⟩
    exact ⟨(platform, marks), ⟨member, named, marked⟩, rfl⟩

/-- A path of which the rules tell nothing is neither ignorable nor of a requested platform. -/
theorem platformsOf?_eq_none_iff {requested : List String} {path : String} :
    platformsOf? requested path = none ↔
      ¬ IsIgnorable path ∧ ∀ platform ∈ requested, ¬ BelongsTo path platform := by
  have none : platformsOf requested path = [] ↔
      ∀ platform ∈ requested, ¬ BelongsTo path platform := by
    simp only [List.eq_nil_iff_forall_not_mem, mem_platformsOf_iff, not_and]
  rw [← none, ← hasMark_ignored_iff]
  unfold platformsOf?
  split_ifs with unknown
  · simpa [and_comm] using unknown
  · simpa [and_comm] using unknown

section

variable {requested changed : List String}

theorem isUnmatched_iff {path : String} :
    IsUnmatched requested path ↔ path ≠ "" ∧ platformsOf? requested path = none := by
  rw [IsUnmatched, platformsOf?_eq_none_iff]

theorem known_ofPlatforms_iff :
    (Rules.ofPlatforms requested).Known changed ↔ ∀ path ∈ changed, ¬ IsUnmatched requested path := by
  simp only [Rules.Known, Rules.ofPlatforms_called, isUnmatched_iff, not_and,
    Option.isSome_iff_ne_none, ne_eq]

theorem mem_names_ofPlatforms_iff (known : (Rules.ofPlatforms requested).Known changed)
    (platform : String) :
    platform ∈ (Rules.ofPlatforms requested).names changed ↔
      platform ∈ requested ∧ ∃ path ∈ changed, path ≠ "" ∧ BelongsTo path platform := by
  have given_eq {path : String} {given : List String}
      (called : platformsOf? requested path = some given) :
      given = platformsOf requested path := by
    unfold platformsOf? at called
    split_ifs at called
    exact (Option.some.inj called).symm
  rw [Rules.mem_names_iff]
  constructor
  · rintro ⟨path, member, nonempty, given, called, inside⟩
    rw [given_eq called] at inside
    obtain ⟨named, belongs⟩ := mem_platformsOf_iff.mp inside
    exact ⟨named, path, member, nonempty, belongs⟩
  · rintro ⟨named, path, member, nonempty, belongs⟩
    obtain ⟨given, called⟩ := Option.isSome_iff_exists.mp (known path member nonempty)
    refine ⟨path, member, nonempty, given, called, ?_⟩
    rw [given_eq called]
    exact mem_platformsOf_iff.mpr ⟨named, belongs⟩

/-- Every path is matched: the requested platforms stay to which one belongs. -/
theorem narrow_platforms_of_known (known : (Rules.ofPlatforms requested).Known changed) :
    ∃ kept, narrow platformKey (.list requested) changed = (.autodetected (.list kept), []) ∧
      kept.Pairwise (fun a b => Octets.ofText a < Octets.ofText b) ∧
      ∀ platform, platform ∈ kept ↔
        platform ∈ requested ∧ ∃ path ∈ changed, path ≠ "" ∧ BelongsTo path platform := by
  refine ⟨sortedDistinct ((Rules.ofPlatforms requested).names changed), ?_,
    sortedDistinct_octets _, ?_⟩
  · refine Prod.ext ?_ ?_
    · rw [narrow_platforms, Rules.outcome_of_known known]
      rfl
    · rw [narrow_platforms_events, Rules.firstUnknown?_eq_none_iff.mpr known]
      rfl
  · intro platform
    rw [mem_sortedDistinct, mem_names_ofPlatforms_iff known]

/-- A list that defaults is put in order, and repetitions in it are dropped. -/
theorem narrow_platforms_of_not_known (unknown : ¬ (Rules.ofPlatforms requested).Known changed) :
    ∃ kept, (narrow platformKey (.list requested) changed).1 = .defaulted (.list kept) ∧
      kept.Pairwise (fun a b => Octets.ofText a < Octets.ofText b) ∧
      ∀ platform, platform ∈ kept ↔ platform ∈ requested := by
  refine ⟨sortedDistinct requested, ?_, sortedDistinct_octets _, mem_sortedDistinct requested⟩
  rw [narrow_platforms, Rules.outcome_of_not_known unknown]
  rfl

/-- The first path that no rule matches is the one that is told of. -/
theorem narrow_platforms_events_of_not_known
    (unknown : ¬ (Rules.ofPlatforms requested).Known changed) :
    ∃ before path after, changed = before ++ path :: after ∧ IsUnmatched requested path ∧
      (∀ earlier ∈ before, ¬ IsUnmatched requested earlier) ∧
      (narrow platformKey (.list requested) changed).2 =
        [⟨.debug, .changes, s!"{path} matches no platform rule"⟩] := by
  obtain ⟨before, path, after, split, unmatched, earlier, found⟩ :=
    Rules.firstUnknown?_of_not_known (fun _ => isUnmatched_iff) unknown
  refine ⟨before, path, after, split, unmatched, earlier, ?_⟩
  rw [narrow_platforms_events, found]
  rfl

/-- Neither the order in which platforms are requested counts nor how often each is. -/
theorem ofPlatforms_congr {requested' : List String}
    (same : ∀ platform, platform ∈ requested ↔ platform ∈ requested') :
    Rules.ofPlatforms requested = Rules.ofPlatforms requested' := by
  have contains : ∀ platform, requested.contains platform = requested'.contains platform := by
    intro platform
    rw [Bool.eq_iff_iff, List.contains_iff_mem, List.contains_iff_mem]
    exact same platform
  have selected : platformsOf requested = platformsOf requested' := by
    funext path
    simp only [platformsOf, contains]
  have called : platformsOf? requested = platformsOf? requested' := by
    funext path
    rw [platformsOf?, platformsOf?, selected]
  simp only [Rules.ofPlatforms, called, sortedDistinct_congr same]

/-- Requests with the same platforms and changes with the same paths have the same outcome. -/
theorem narrow_platforms_congr {requested' changed' : List String}
    (sameRequest : ∀ platform, platform ∈ requested ↔ platform ∈ requested')
    (samePaths : ∀ path, path ≠ "" → (path ∈ changed ↔ path ∈ changed')) :
    (narrow platformKey (.list requested') changed').1 =
      (narrow platformKey (.list requested) changed).1 := by
  rw [narrow_platforms, narrow_platforms, ← ofPlatforms_congr sameRequest]
  exact (Rules.outcome_congr samePaths).symm

end

/-- All requested platforms stay exactly if a changed path is unmatched, and the first such path is
told of. Otherwise those stay to which a changed path belongs. Either way they are in the order of
their octets, each once, and neither the order of the request or of the paths counts nor how often
something stands there. -/
theorem narrow_platforms_exact (requested changed : List String) :
    (∃ kept : List String, kept.Pairwise (fun a b => Octets.ofText a < Octets.ofText b) ∧
      (∀ platform ∈ kept, platform ∈ requested) ∧
      ((narrow platformKey (.list requested) changed).1 = .defaulted (.list kept) ↔
        ∃ path ∈ changed, IsUnmatched requested path) ∧
      ((∃ path ∈ changed, IsUnmatched requested path) →
        (∀ platform, platform ∈ kept ↔ platform ∈ requested) ∧
        ∃ before path after, changed = before ++ path :: after ∧ IsUnmatched requested path ∧
          (∀ earlier ∈ before, ¬ IsUnmatched requested earlier) ∧
          (narrow platformKey (.list requested) changed).2 =
            [⟨.debug, .changes, s!"{path} matches no platform rule"⟩]) ∧
      ((∀ path ∈ changed, ¬ IsUnmatched requested path) →
        narrow platformKey (.list requested) changed = (.autodetected (.list kept), []) ∧
        ∀ platform, platform ∈ kept ↔
          platform ∈ requested ∧ ∃ path ∈ changed, path ≠ "" ∧ BelongsTo path platform)) ∧
    ∀ requested' changed' : List String,
      (∀ platform, platform ∈ requested ↔ platform ∈ requested') →
      (∀ path, path ≠ "" → (path ∈ changed ↔ path ∈ changed')) →
      (narrow platformKey (.list requested') changed').1 =
        (narrow platformKey (.list requested) changed).1 := by
  refine ⟨?_, fun _ _ => narrow_platforms_congr⟩
  have unmatched_iff : (∃ path ∈ changed, IsUnmatched requested path) ↔
      ¬ (Rules.ofPlatforms requested).Known changed := by
    rw [known_ofPlatforms_iff]
    simp only [not_forall, not_not, exists_prop]
  rw [unmatched_iff, ← known_ofPlatforms_iff]
  by_cases known : (Rules.ofPlatforms requested).Known changed
  · obtain ⟨kept, detected, ascending, selected⟩ := narrow_platforms_of_known known
    refine ⟨kept, ascending, fun platform member => ((selected platform).mp member).1, ?_,
      fun unknown => absurd known unknown, fun _ => ⟨detected, selected⟩⟩
    rw [detected]
    exact iff_of_false Outcome.noConfusion (not_not_intro known)
  · obtain ⟨kept, defaulted, ascending, selected⟩ := narrow_platforms_of_not_known known
    exact ⟨kept, ascending, fun platform => (selected platform).mp, iff_of_true defaulted known,
      fun _ => ⟨selected, narrow_platforms_events_of_not_known known⟩,
      fun known' => absurd known' known⟩

/-- A path below a directory without tests still counts for the platforms that it belongs to. -/
example : narrow platformKey (.list ["iOS", "Desktop", "Android", "iOS"])
    ["external/a.io\u017F/b.mm", "", "README.md", "gradle/Pod"] =
      (.autodetected (.list ["Android", "iOS"]), []) := by
  decide +kernel

end WorkflowKit.Changes
