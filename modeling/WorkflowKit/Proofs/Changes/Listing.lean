import WorkflowKit.Proofs.Changes.Asking
import WorkflowKit.Proofs.List
import WorkflowKit.Proofs.Text.Lines
import WorkflowKit.Proofs.Text.Octets

namespace WorkflowKit.Changes

/-- Holds of a line and the path that is read in it: what stands between the blanks at both ends. -/
structure Shows (line : Octets) (path : String) : Prop where
  visible : path ≠ ""
  trimmed : Text.IsTrimmed path
  blanks : ∃ before after, (∀ c ∈ before ++ after, Text.isBlank c) ∧
    line.lossyText.toList = before ++ path.toList ++ after

theorem shows_iff {line : Octets} {path : String} :
    Shows line path ↔ path ≠ "" ∧ line.lineText = path := by
  rw [Octets.lineText, Text.trim_eq_iff]
  constructor
  · rintro ⟨visible, trimmed, blanks⟩
    exact ⟨visible, trimmed, blanks⟩
  · rintro ⟨visible, trimmed, blanks⟩
    exact ⟨visible, trimmed, blanks⟩

/-- Of two paths the first one is shown before the other is shown at all. -/
def ShownBefore (lines : List Octets) (path other : String) : Prop :=
  ∃ first rest, lines = first ++ rest ∧ (∃ line ∈ first, Shows line path) ∧
    ∀ line ∈ first, ¬ Shows line other

/-- The paths that lines show, in the order in which they are shown first. -/
structure Lists (lines : List Octets) (paths : List String) : Prop where
  distinct : paths.Nodup
  clean : ∀ path ∈ paths, path ≠ "" ∧ Text.IsTrimmed path
  mem_iff : ∀ path, path ∈ paths ↔ ∃ line ∈ lines, Shows line path
  ordered : paths.Pairwise (ShownBefore lines)

/-- The paths that lines show, with repetitions. -/
def shownPaths (lines : List Octets) : List String :=
  (lines.map Octets.lineText).filter (· ≠ "")

theorem mem_shownPaths_iff {lines : List Octets} {path : String} :
    path ∈ shownPaths lines ↔ ∃ line ∈ lines, Shows line path := by
  simp only [shownPaths, List.mem_filter, List.mem_map, decide_eq_true_eq, shows_iff]
  constructor
  · rintro ⟨⟨line, member, same⟩, visible⟩
    exact ⟨line, member, visible, same⟩
  · rintro ⟨line, member, visible, same⟩
    exact ⟨⟨line, member, same⟩, visible⟩

/-- A path that is shown before another has its first line before the other has any. -/
theorem shownBefore_of_shownPaths {lines : List Octets} {path other : String}
    (before : ∃ first rest, shownPaths lines = first ++ rest ∧ path ∈ first ∧ other ∉ first) :
    ShownBefore lines path other := by
  obtain ⟨first, rest, parts, inside, outside⟩ := before
  obtain ⟨texts, texts', whole, rfl, rfl⟩ := List.filter_eq_append_iff.mp parts
  obtain ⟨lines, lines', rfl, rfl, rfl⟩ := List.map_eq_append_iff.mp whole
  exact ⟨lines, lines', rfl, mem_shownPaths_iff.mp inside,
    fun line member shows => outside (mem_shownPaths_iff.mpr ⟨line, member, shows⟩)⟩

theorem lists_shownPaths (lines : List Octets) : Lists lines (shownPaths lines).eraseDups where
  distinct := List.eraseDups_nodup _
  clean path member := by
    obtain ⟨line, _, shows⟩ := mem_shownPaths_iff.mp (List.mem_eraseDups.mp member)
    exact ⟨shows.visible, shows.trimmed⟩
  mem_iff path := List.mem_eraseDups.trans mem_shownPaths_iff
  ordered := (List.eraseDups_pairwise _).imp shownBefore_of_shownPaths

section

variable {stdout : Octets} {lines : List Octets}

theorem listedPaths_eq (parts : Octets.InLines stdout lines) :
    listedPaths stdout = (shownPaths lines).eraseDups := by
  rw [listedPaths, parts.trim_lines, shownPaths]

/-- What is listed of the output depends on its lines alone, and each path is listed once. -/
theorem lists_of_inLines (parts : Octets.InLines stdout lines) :
    Lists lines (listedPaths stdout) := by
  rw [listedPaths_eq parts]
  exact lists_shownPaths lines

end

/-- What is listed is decided by what git prints, whatever its octets are and however its lines end:
every path that is shown, once, where it is shown first. What is then made of a value is decided by what is
shown alone, and neither by the order of the lines, their ends nor repetitions. -/
theorem paths_listed :
    (∀ files directory branch location answer, CanAsk files directory branch location →
      answer.succeeded → ∃ listed,
        (paths ⟨some answer, files⟩ directory branch).result = .ok listed ∧
        (∃ lines, Octets.InLines answer.stdout lines) ∧
        ∀ lines, Octets.InLines answer.stdout lines → Lists lines listed) ∧
    ∀ files directory branch location a b aLines bLines key value,
      CanAsk files directory branch location → a.succeeded → b.succeeded →
      Octets.InLines a.stdout aLines → Octets.InLines b.stdout bLines →
      (∀ path, (∃ line ∈ aLines, Shows line path) ↔ ∃ line ∈ bLines, Shows line path) →
      ∃ outcome, (narrowTo ⟨some a, files⟩ directory branch key value).result = .ok outcome ∧
        (narrowTo ⟨some b, files⟩ directory branch key value).result = .ok outcome := by
  refine ⟨fun files directory branch location answer can succeeded => ?_,
    fun files directory branch location a b aLines bLines key value can aSucceeded bSucceeded
      aParts bParts same => ?_⟩
  · exact ⟨_, result_paths_of_succeeded can succeeded, Octets.exists_inLines _,
      fun lines => lists_of_inLines⟩
  · have alike : (narrow key value (listedPaths a.stdout)).1 =
        (narrow key value (listedPaths b.stdout)).1 := by
      refine narrow_congr key value fun path _ => ?_
      rw [(lists_of_inLines aParts).mem_iff, (lists_of_inLines bParts).mem_iff, same]
    refine ⟨_, result_narrowTo_of_succeeded can aSucceeded key value, ?_⟩
    rw [alike]
    exact result_narrowTo_of_succeeded can bSucceeded key value

/-- Lines with either end, a blank one, a repeated one, one with a blank before its path and an ill-formed one
without an end show the same as three lines in another order, of which one is ill-formed in another
way. -/
theorem paths_listed_mixed :
    let a := Octets.ofText "storage/a.cc"
    let b := Octets.ofText "auth/b.cc"
    let loose : GitAnswer :=
      ⟨a ++ 0x0D :: 0x0A :: ([] ++ 0x0A :: (0x20 :: b ++ 0x0A :: (a ++ 0x0A :: [0xC3]))), [], 0⟩
    let tidy : GitAnswer := ⟨b ++ 0x0A :: ([0xFF] ++ 0x0A :: (a ++ 0x0A :: [])), [], 0⟩
    (∃ listed, (paths ⟨some loose, .empty⟩ workingDirectory "main").result = .ok listed ∧
      Lists [a, [], 0x20 :: b, a, [0xC3]] listed) ∧
    ∃ outcome,
      (narrowTo ⟨some loose, .empty⟩ workingDirectory "main" apisKey (.text "storage")).result =
        .ok outcome ∧
      (narrowTo ⟨some tidy, .empty⟩ workingDirectory "main" apisKey (.text "storage")).result =
        .ok outcome := by
  intro a b loose tidy
  have can : CanAsk .empty workingDirectory "main" [] :=
    canAsk_workingDirectory .empty (by decide)
  have freeA : 0x0A ∉ a := by decide +kernel
  have freeB : 0x0A ∉ 0x20 :: b := by decide +kernel
  have looseParts : Octets.InLines loose.stdout [a, [], 0x20 :: b, a, [0xC3]] :=
    .returnLineFeed freeA (.lineFeed List.not_mem_nil (.lineFeed freeB (.lineFeed freeA
      (.last (by decide) (by decide)))))
  have tidyParts : Octets.InLines tidy.stdout [b, [0xFF], a] :=
    .lineFeed (fun member => freeB (List.mem_cons_of_mem _ member)) (.lineFeed (by decide)
      (.lineFeed freeA .done))
  have looseShown : shownPaths [a, [], 0x20 :: b, a, [0xC3]] =
      ["storage/a.cc", "auth/b.cc", "storage/a.cc", "\uFFFD"] := by decide +kernel
  have tidyShown : shownPaths [b, [0xFF], a] = ["auth/b.cc", "\uFFFD", "storage/a.cc"] := by
    decide +kernel
  refine ⟨?_, ?_⟩
  · obtain ⟨listed, found, _, lists⟩ := paths_listed.1 .empty _ _ _ loose can (by decide)
    exact ⟨listed, found, lists _ looseParts⟩
  · have same (path : String) : (∃ line ∈ [a, [], 0x20 :: b, a, [0xC3]], Shows line path) ↔
        ∃ line ∈ [b, [0xFF], a], Shows line path := by
      rw [← mem_shownPaths_iff, ← mem_shownPaths_iff, looseShown, tidyShown]
      simp only [List.mem_cons, List.not_mem_nil, or_false]
      grind
    exact paths_listed.2 .empty workingDirectory "main" _ loose tidy _ _ apisKey (.text "storage")
      can rfl rfl looseParts tidyParts same

/-- Holds of the characters that git prints as they are in a path: those of ASCII that can be seen and the
space, other than the two that are marked. -/
def IsUnquoted (c : Char) : Prop :=
  0x20 ≤ c.toNat ∧ c.toNat ≤ 0x7E ∧ c ≠ '"' ∧ c ≠ '\\'

/-- What git prints of paths: one in each line. -/
def printedPaths (changed : List String) : Octets :=
  changed.flatMap fun path => Octets.ofText path ++ [0x0A]

/-- The only blank among the characters that are printed as they are is the space. -/
theorem IsUnquoted.isBlank_iff {c : Char} (unquoted : IsUnquoted c) : Text.isBlank c ↔ c = ' ' := by
  obtain ⟨least, most, _⟩ := unquoted
  have space : c = ' ' ↔ c.toNat = 0x20 := by
    rw [Char.ext_iff, ← UInt32.toNat_inj]
    rfl
  simp only [Text.isBlank, Bool.or_eq_true, Bool.and_eq_true, decide_eq_true_eq, beq_iff_eq, space]
  omega

theorem inLines_printedPaths {changed : List String}
    (plain : ∀ path ∈ changed, ∀ c ∈ path.toList, IsUnquoted c) :
    Octets.InLines (printedPaths changed) (changed.map Octets.ofText) := by
  induction changed with
  | nil => exact .done
  | cons path changed ih =>
    obtain ⟨first, others⟩ := List.forall_mem_cons.mp plain
    have free : 0x0A ∉ Octets.ofText path := by
      rw [Octets.ofText, Octets.lineFeed_mem_ofChars_iff]
      intro member
      exact absurd (first '\n' member).1 (by decide)
    have parts := Octets.InLines.lineFeed free (ih others)
    rwa [List.append_cons] at parts

theorem isTrimmed_iff_of_unquoted {path : String} (plain : ∀ c ∈ path.toList, IsUnquoted c) :
    Text.IsTrimmed path ↔ path.toList.head? ≠ some ' ' ∧ path.toList.getLast? ≠ some ' ' := by
  have free {found : Option Char} (inside : ∀ c ∈ found, c ∈ path.toList) :
      (∀ c ∈ found, ¬ Text.isBlank c) ↔ found ≠ some ' ' := by
    constructor
    · rintro visible rfl
      exact visible ' ' rfl (by decide)
    · rintro other c rfl blank
      obtain rfl := (plain c (inside c rfl)).isBlank_iff.mp blank
      exact other rfl
  exact and_congr (free fun _ => List.mem_of_mem_head?) (free fun _ => List.mem_of_mem_getLast?)

/-- Paths without blanks at their ends are read as they were printed. -/
theorem shownPaths_ofText {changed : List String} (nonempty : ∀ path ∈ changed, path ≠ "")
    (trimmed : ∀ path ∈ changed, Text.IsTrimmed path) :
    shownPaths (changed.map Octets.ofText) = changed := by
  have texts : (changed.map Octets.ofText).map Octets.lineText = changed := by
    rw [List.map_map]
    refine (List.map_congr_left fun path member => ?_).trans (List.map_id changed)
    exact (Octets.lineText_ofText path).trans (Text.trim_eq_self_iff.mpr (trimmed path member))
  rw [shownPaths, texts]
  exact List.filter_eq_self.mpr fun path member => decide_eq_true (nonempty path member)

/-- Changed paths that git prints as they are, each in its line, are listed as they are exactly if none of them
begins or ends with a space. Otherwise what is listed are the paths without these spaces, and those that
are the same then are listed once. -/
theorem paths_faithful_iff {files : Files} {directory branch : String} {location : Location}
    {answer : GitAnswer} {changed : List String} (can : CanAsk files directory branch location)
    (succeeded : answer.succeeded) (distinct : changed.Nodup)
    (plain : ∀ path ∈ changed, path ≠ "" ∧ ∀ c ∈ path.toList, IsUnquoted c)
    (printed : answer.stdout = printedPaths changed) :
    ∃ listed, (paths ⟨some answer, files⟩ directory branch).result = .ok listed ∧
      Lists (changed.map Octets.ofText) listed ∧
      (listed = changed ↔
        ∀ path ∈ changed, path.toList.head? ≠ some ' ' ∧ path.toList.getLast? ≠ some ' ') := by
  have unquoted := fun path member => (plain path member).2
  have parts : Octets.InLines answer.stdout (changed.map Octets.ofText) := by
    rw [printed]
    exact inLines_printedPaths unquoted
  have lists := lists_of_inLines parts
  refine ⟨_, result_paths_of_succeeded can succeeded, lists, ?_⟩
  -- Of the blanks only the space is printed as it is: paths with others are quoted.
  have ends : (∀ path ∈ changed, path.toList.head? ≠ some ' ' ∧ path.toList.getLast? ≠ some ' ') ↔
      ∀ path ∈ changed, Text.IsTrimmed path :=
    forall₂_congr fun path member => (isTrimmed_iff_of_unquoted (unquoted path member)).symm
  rw [ends]
  constructor
  · intro same path member
    exact (lists.clean path (same ▸ member)).2
  · intro trimmed
    rw [listedPaths_eq parts, shownPaths_ofText (fun path member => (plain path member).1) trimmed,
      List.eraseDups_of_nodup distinct]

/-- Spaces inside of a path do not matter. -/
theorem paths_faithful_inner_space :
    let changed := ["auth/a b.cc", "release notes.md"]
    (paths ⟨some ⟨printedPaths changed, [], 0⟩, .empty⟩ workingDirectory "main").result =
      .ok changed := by
  intro changed
  have can : CanAsk .empty workingDirectory "main" [] :=
    canAsk_workingDirectory .empty (by decide)
  let answer : GitAnswer := ⟨printedPaths changed, [], 0⟩
  have plain : ∀ path ∈ changed, path ≠ "" ∧ ∀ c ∈ path.toList, IsUnquoted c := by
    simp [changed, IsUnquoted]
  have printed : answer.stdout = printedPaths changed := rfl
  obtain ⟨listed, found, _, same⟩ := paths_faithful_iff can rfl (by decide) plain printed
  rw [found, same.mpr (by decide)]

/-- A directory of which the name begins with a space is taken for the one without it, in which changes need no
tests, and its path is lost when the other has changed as well. -/
theorem paths_lose_space :
    let changed := [" external/a.cc", "external/a.cc"]
    changed.Nodup ∧ (∀ path ∈ changed, path ≠ "" ∧ ∀ c ∈ path.toList, IsUnquoted c) ∧
      (paths ⟨some ⟨printedPaths changed, [], 0⟩, .empty⟩ workingDirectory "main").result =
        .ok ["external/a.cc"] ∧
      changed ≠ ["external/a.cc"] := by
  intro changed
  have can : CanAsk .empty workingDirectory "main" [] :=
    canAsk_workingDirectory .empty (by decide)
  have listed : listedPaths (printedPaths changed) = ["external/a.cc"] := by decide +kernel
  refine ⟨by decide, by simp [changed, IsUnquoted], ?_, by decide⟩
  rw [← listed]
  exact result_paths_of_succeeded can rfl

end WorkflowKit.Changes
