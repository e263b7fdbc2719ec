import WorkflowKit.Proofs.Changes.Apis
import WorkflowKit.Proofs.Changes.Platforms

namespace WorkflowKit.Changes

theorem Rules.Known.of_subset {rules : Rules} {changed part : List String}
    (known : rules.Known changed) (subset : ∀ path ∈ part, path ≠ "" → path ∈ changed) :
    rules.Known part :=
  fun path member nonempty => known path (subset path member nonempty) nonempty

section

variable {requested wider text : String} {changed : List String}

/-- What known changes call for does not depend on the request. -/
theorem narrow_apis_eq_of_known (known : (Rules.ofApis requested).Known changed)
    (knownWider : (Rules.ofApis wider).Known changed) :
    narrow apisKey (.text wider) changed = narrow apisKey (.text requested) changed := by
  obtain ⟨names, detected, ascending, called, _⟩ := narrow_apis_of_known known
  obtain ⟨names', detected', ascending', called', _⟩ := narrow_apis_of_known knownWider
  have same : names' = names :=
    Octets.eq_of_mem_iff ascending' ascending fun api => by rw [called, called']
  rw [detected, detected', same]

/-- What a request recognizes, a wider one recognizes as well. -/
theorem known_ofApis_of_wider
    (widens : ∀ api ∈ Text.pieces ',' requested, api ∈ Text.pieces ',' wider)
    (known : (Rules.ofApis requested).Known changed) : (Rules.ofApis wider).Known changed :=
  known_ofApis_iff.mpr fun directory changes =>
    widens directory (known_ofApis_iff.mp known directory changes)

/-- The narrowed text names every directory that has changed, so it knows the same paths. -/
theorem known_ofApis_of_narrowed (known : (Rules.ofApis requested).Known changed)
    (narrowed : (narrow apisKey (.text requested) changed).1.value = .text text) :
    (Rules.ofApis text).Known changed := by
  refine known_ofApis_iff.mpr fun directory changes => ?_
  have named := mem_narrowedApis_of_calledFor known (Or.inl changes)
  rwa [narrowedApis, narrowed] at named

/-- Narrowing to a part of the changes is the same before and after narrowing to all of them. -/
theorem narrow_apis_of_narrowed {part : List String} (requested : String)
    (subset : ∀ path ∈ part, path ≠ "" → path ∈ changed) :
    narrow apisKey (narrow apisKey (.text requested) changed).1.value part =
      narrow apisKey (.text requested) part := by
  by_cases known : (Rules.ofApis requested).Known changed
  · obtain ⟨names, detected, _⟩ := narrow_apis_of_known known
    have value : (narrow apisKey (.text requested) changed).1.value =
        .text (Text.joined ',' names) := by
      rw [detected]
      rfl
    rw [value]
    exact narrow_apis_eq_of_known (known.of_subset subset)
      ((known_ofApis_of_narrowed known value).of_subset subset)
  · rw [narrow_apis_of_not_known known]
    rfl

end

section

variable {requested wider kept : List String} {changed part : List String}

theorem IsUnmatched.of_wider {path : String} (widens : ∀ platform ∈ requested, platform ∈ wider)
    (unmatched : IsUnmatched wider path) : IsUnmatched requested path := by
  obtain ⟨nonempty, counts, unknown⟩ := unmatched
  exact ⟨nonempty, counts, fun platform member => unknown platform (widens platform member)⟩

/-- A wider request has more rules, so it leaves no more paths unmatched. -/
theorem known_ofPlatforms_of_wider (widens : ∀ platform ∈ requested, platform ∈ wider)
    (known : (Rules.ofPlatforms requested).Known changed) :
    (Rules.ofPlatforms wider).Known changed :=
  known_ofPlatforms_iff.mpr fun path member unmatched =>
    known_ofPlatforms_iff.mp known path member (unmatched.of_wider widens)

/-- Of the platforms that a wider request selects, the request selects those that it asks for. -/
theorem narrow_platforms_of_wider (widens : ∀ platform ∈ requested, platform ∈ wider)
    (known : (Rules.ofPlatforms requested).Known changed) :
    ∃ kept, (narrow platformKey (.list wider) changed).1 = .autodetected (.list kept) ∧
      (narrow platformKey (.list requested) changed).1 =
        .autodetected (.list (kept.filter (· ∈ requested))) := by
  obtain ⟨least, detected, ascending, selected⟩ := narrow_platforms_of_known known
  obtain ⟨kept, detected', ascending', selected'⟩ :=
    narrow_platforms_of_known (known_ofPlatforms_of_wider widens known)
  have same : least = kept.filter (· ∈ requested) := by
    refine Octets.eq_of_mem_iff ascending (ascending'.filter _) fun platform => ?_
    rw [List.mem_filter, decide_eq_true_iff, selected, selected', and_comm (b := platform ∈ requested),
      ← and_assoc, and_iff_left_of_imp (widens platform)]
  exact ⟨kept, by rw [detected'], by rw [detected, same]⟩

/-- A path that matches a request still matches what is left of it, as all platforms are left to
which the path belongs. -/
theorem known_ofPlatforms_of_narrowed (known : (Rules.ofPlatforms requested).Known changed)
    (selected : ∀ platform, platform ∈ kept ↔
      platform ∈ requested ∧ ∃ path ∈ changed, path ≠ "" ∧ BelongsTo path platform) :
    (Rules.ofPlatforms kept).Known changed := by
  refine known_ofPlatforms_iff.mpr fun path member ⟨nonempty, counts, unknown⟩ => ?_
  refine known_ofPlatforms_iff.mp known path member ⟨nonempty, counts, fun platform named belongs => ?_⟩
  exact unknown platform ((selected platform).mpr ⟨named, path, member, nonempty, belongs⟩) belongs

/-- Narrowing to a part of the changes is the same before and after narrowing to all of them. -/
theorem narrow_platforms_of_narrowed (requested : List String)
    (subset : ∀ path ∈ part, path ≠ "" → path ∈ changed) :
    narrow platformKey (narrow platformKey (.list requested) changed).1.value part =
      narrow platformKey (.list requested) part := by
  by_cases known : (Rules.ofPlatforms requested).Known changed
  · obtain ⟨kept, detected, _, selected⟩ := narrow_platforms_of_known known
    obtain ⟨first, detectedFirst, ascendingFirst, selectedFirst⟩ :=
      narrow_platforms_of_known (known.of_subset subset)
    obtain ⟨again, detectedAgain, ascendingAgain, selectedAgain⟩ :=
      narrow_platforms_of_known ((known_ofPlatforms_of_narrowed known selected).of_subset subset)
    have same : again = first := by
      refine Octets.eq_of_mem_iff ascendingAgain ascendingFirst fun platform => ?_
      rw [selectedAgain, selectedFirst, selected, and_assoc]
      refine and_congr_right fun _ => and_iff_right_of_imp ?_
      rintro ⟨path, member, nonempty, belongs⟩
      exact ⟨path, subset path member nonempty, nonempty, belongs⟩
    rw [detected, detectedFirst, ← same]
    exact detectedAgain
  · have value : (narrow platformKey (.list requested) changed).1.value =
        .list (sortedDistinct requested) := by
      rw [narrow_platforms, Rules.outcome_of_not_known known]
      rfl
    have same : Rules.ofPlatforms (sortedDistinct requested) = Rules.ofPlatforms requested :=
      ofPlatforms_congr (mem_sortedDistinct requested)
    rw [value]
    refine Prod.ext ?_ ?_
    · rw [narrow_platforms, narrow_platforms, same]
    · rw [narrow_platforms_events, narrow_platforms_events, same]

end

/-- A value that was narrowed to some changes is narrowed to a part of them as if it were still all
that was requested. -/
theorem narrow_of_narrowed (key : String) (value : Setting) {changed part : List String}
    (subset : ∀ path ∈ part, path ≠ "" → path ∈ changed) :
    narrow key (narrow key value changed).1.value part = narrow key value part := by
  by_cases narrowable : Narrowable key value
  · rcases narrowable with ⟨rfl, requested, rfl⟩ | ⟨rfl, requested, rfl⟩
    · exact narrow_apis_of_narrowed requested subset
    · exact narrow_platforms_of_narrowed requested subset
  · rw [narrow_of_not_narrowable narrowable, Outcome.value]

/-- Narrowing twice is narrowing once, in the outcome and in what is told of it. -/
theorem narrow_idempotent (key : String) (value : Setting) (changed : List String) :
    narrow key (narrow key value changed).1.value changed = narrow key value changed :=
  narrow_of_narrowed key value fun _ member _ => member

/-- Nothing is left of a request that no change calls for, and that is narrowed to nothing again. -/
example : (narrow apisKey (.text "gma") ["external/a"]).1 = .autodetected (.text "") ∧
    (narrow apisKey (.text "") ["external/a"]).1 = .autodetected (.text "") := by
  decide +kernel

/-- Two requests for the same changes, of which the second has every entry of the first: if the first
is narrowed, so is the second. The interfaces are then the same, and of the platforms the first has
those that it asked for. If the second is not narrowed, neither is the first. -/
theorem narrow_of_wider (changed : List String) :
    (∀ requested wider : String,
      (∀ api ∈ Text.pieces ',' requested, api ∈ Text.pieces ',' wider) →
      (∀ value, (narrow apisKey (.text requested) changed).1 = .autodetected value →
        (narrow apisKey (.text wider) changed).1 = .autodetected value) ∧
      ∀ value, (narrow apisKey (.text wider) changed).1 = .defaulted value →
        (narrow apisKey (.text requested) changed).1 = .defaulted (.text requested)) ∧
    ∀ requested wider : List String, (∀ platform ∈ requested, platform ∈ wider) →
      (∀ value, (narrow platformKey (.list requested) changed).1 = .autodetected value →
        ∃ kept, (narrow platformKey (.list wider) changed).1 = .autodetected (.list kept) ∧
          value = .list (kept.filter (· ∈ requested))) ∧
      ∀ value, (narrow platformKey (.list wider) changed).1 = .defaulted value →
        ∃ all, (narrow platformKey (.list requested) changed).1 = .defaulted (.list all) := by
  refine ⟨fun requested wider widens => ⟨fun value detected => ?_, fun value defaulted => ?_⟩,
    fun requested wider widens => ⟨fun value detected => ?_, fun value defaulted => ?_⟩⟩
  · have known := Rules.known_iff.mpr ⟨value, (narrow_apis requested changed).symm.trans detected⟩
    rw [narrow_apis_eq_of_known known (known_ofApis_of_wider widens known), detected]
  · have unknown := Rules.not_known_iff.mpr ⟨value, (narrow_apis wider changed).symm.trans defaulted⟩
    exact narrow_apis_of_not_known fun known => unknown (known_ofApis_of_wider widens known)
  · have known := Rules.known_iff.mpr ⟨value, (narrow_platforms requested changed).symm.trans detected⟩
    obtain ⟨kept, detected', selected⟩ := narrow_platforms_of_wider widens known
    rw [selected, Outcome.autodetected.injEq] at detected
    exact ⟨kept, detected', detected.symm⟩
  · have unknown := Rules.not_known_iff.mpr ⟨value, (narrow_platforms wider changed).symm.trans defaulted⟩
    obtain ⟨all, defaulted', _⟩ := narrow_platforms_of_not_known fun known =>
      unknown (known_ofPlatforms_of_wider widens known)
    exact ⟨all, defaulted'⟩

/-- Asked for iOS alone, a path that also belongs to Android calls for no more than iOS. The same
changes narrow a request for all their directories, and none that leaves one out. -/
theorem narrow_of_wider_mobile :
    let changed := ["app/ios/a.mm", "gradle/Pods", "README.md"]
    ((narrow platformKey (.list ["iOS"]) changed).1 = .autodetected (.list ["iOS"]) ∧
      ∃ kept, (narrow platformKey (.list ["iOS", "Desktop", "Android"]) changed).1 =
          .autodetected (.list kept) ∧
        Setting.list ["iOS"] = .list (kept.filter (· ∈ ["iOS"]))) ∧
    ((narrow apisKey (.text "app,gradle,README.md") changed).1 =
        .autodetected (.text "README.md,app,gradle") ∧
      (narrow apisKey (.text "app,auth,gradle,README.md") changed).1 =
        .autodetected (.text "README.md,app,gradle")) ∧
    ((narrow platformKey (.list ["Desktop", "tvOS"]) changed).1 =
        .defaulted (.list ["Desktop", "tvOS"]) ∧
      ∃ all, (narrow platformKey (.list ["Desktop"]) changed).1 = .defaulted (.list all)) ∧
    (narrow apisKey (.text "app,gradle") changed).1 = .defaulted (.text "app,gradle") ∧
      (narrow apisKey (.text "app") changed).1 = .defaulted (.text "app") := by
  intro changed
  obtain ⟨apis, platforms⟩ := narrow_of_wider changed
  have someApis := apis "app,gradle,README.md" "app,auth,gradle,README.md" (by decide +kernel)
  have fewApis := apis "app" "app,gradle" (by decide +kernel)
  have somePlatforms := platforms ["iOS"] ["iOS", "Desktop", "Android"] (by decide)
  have fewPlatforms := platforms ["Desktop"] ["Desktop", "tvOS"] (by decide)
  have mobile : (narrow platformKey (.list ["iOS"]) changed).1 = .autodetected (.list ["iOS"]) := by
    decide +kernel
  have directories : (narrow apisKey (.text "app,gradle,README.md") changed).1 =
      .autodetected (.text "README.md,app,gradle") := by
    decide +kernel
  have others : (narrow platformKey (.list ["Desktop", "tvOS"]) changed).1 =
      .defaulted (.list ["Desktop", "tvOS"]) := by
    decide +kernel
  have missing : (narrow apisKey (.text "app,gradle") changed).1 =
      .defaulted (.text "app,gradle") := by
    decide +kernel
  exact ⟨⟨mobile, somePlatforms.1 _ mobile⟩, ⟨directories, someApis.1 _ directories⟩,
    ⟨others, fewPlatforms.2 _ others⟩, missing, fewApis.2 _ missing⟩

end WorkflowKit.Changes
