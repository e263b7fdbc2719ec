import WorkflowKit.Files
import WorkflowKit.Proofs.Text.Pieces
import Mathlib.Tactic.SplitIfs

namespace WorkflowKit

namespace Location

/-- Where names lead to from a location, whatever stands there. -/
def after (location : Location) (names : List String) : Location :=
  names.foldl next location

/-- The locations that names are followed from. -/
def passed : Location → List String → List Location
  | _, [] => []
  | location, name :: names => location :: passed (location.next name) names

/-- The path of a location from the root. -/
def path (location : Location) : String :=
  "/" ++ Text.joined '/' location

end Location

namespace Files

variable {files : Files} {location goal : Location} {path : String} {steps : List String}

theorem checkDirectory_eq_ok_iff :
    files.checkDirectory location = .ok () ↔ files.get? location = some .directory := by
  unfold checkDirectory
  split <;> simp [*]

/-- Each step starts in a directory and has a name that is not too long. -/
theorem walk_cons_eq_ok_iff {name : String} :
    files.walk location (name :: steps) = .ok goal ↔
      files.get? location = some .directory ∧ name.utf8ByteSize ≤ nameLimit ∧
        files.walk (location.next name) steps = .ok goal := by
  cases checked : files.checkDirectory location with
  | error fault =>
    have closed : files.get? location ≠ some .directory := by
      simp [← checkDirectory_eq_ok_iff, checked]
    simp [walk, checked, closed, bind, Except.bind]
  | ok _ =>
    have opened := checkDirectory_eq_ok_iff.mp checked
    by_cases short : name.utf8ByteSize ≤ nameLimit
    · simp [walk, checked, opened, short, Nat.not_lt.mpr short, bind, Except.bind]
    · simp [walk, checked, short, Nat.lt_of_not_le short, bind, Except.bind]

/-- Names can be followed exactly if all that they are followed from are directories and none of
them is too long. What they lead to need not be there. -/
theorem walk_eq_ok_iff :
    files.walk location steps = .ok goal ↔
      (∀ above ∈ location.passed steps, files.get? above = some .directory) ∧
        (∀ name ∈ steps, name.utf8ByteSize ≤ nameLimit) ∧ location.after steps = goal := by
  induction steps generalizing location with
  | nil => simp [walk, Location.passed, Location.after]
  | cons name steps ih =>
    rw [walk_cons_eq_ok_iff, ih]
    simp only [Location.passed, Location.after, List.forall_mem_cons, List.foldl_cons, and_assoc,
      and_left_comm]

/-- Holds of a path that can be handed to the system. -/
structure IsGiven (path : String) : Prop where
  free : '\x00' ∉ path.toList
  nonempty : path ≠ ""
  short : path.utf8ByteSize ≤ pathLimit

theorem follow_eq_ok_iff :
    files.follow path steps = .ok goal ↔
      IsGiven path ∧ files.walk (files.start path) steps = .ok goal := by
  unfold follow
  split_ifs with nul empty long
  · simp only [false_iff, not_and]
    intro given
    exact absurd (by simpa using nul) given.free
  · simp only [false_iff, not_and]
    intro given
    exact absurd (by simpa using empty) given.nonempty
  · simp only [false_iff, not_and]
    intro given
    exact absurd given.short (Nat.not_le.mpr long)
  · have given : IsGiven path := ⟨by simpa using nul, by simpa using empty, Nat.not_lt.mp long⟩
    simp [given]

/-- A path that does not end with a slash may lead to a file as well as to a directory. -/
theorem locate_of_not_isClosed (unclosed : isClosed path = false) :
    files.locate path = files.follow path (names path) := by
  simp [locate, unclosed]

/-- A file is written where a path that is not closed leads to, if no directory is there. -/
theorem target_eq_ok_iff :
    files.target path = .ok location ↔
      isClosed path = false ∧ files.locate path = .ok location ∧
        files.get? location ≠ some .directory := by
  cases closed : isClosed path with
  | true =>
    cases followed : files.follow path (names path) with
    | error fault => simp [target, followed, bind, Except.bind]
    | ok goal => simp [target, followed, closed, bind, Except.bind]
  | false =>
    cases followed : files.follow path (names path) with
    | error fault => simp [target, locate_of_not_isClosed closed, followed, bind, Except.bind]
    | ok goal =>
      simp only [target, locate_of_not_isClosed closed, followed, closed, bind, Except.bind,
        Bool.false_eq_true, if_false, true_and, Except.ok.injEq]
      split
      · rename_i occupied
        simp only [reduceCtorEq, false_iff, not_and]
        rintro rfl free
        exact free occupied
      · rename_i free
        rw [Except.ok.injEq, iff_self_and]
        rintro rfl
        exact free

/-- Holds of a name that something in a directory can have. -/
structure IsName (name : String) : Prop where
  nonempty : name ≠ ""
  notHere : name ≠ "."
  notAbove : name ≠ ".."
  undivided : '/' ∉ name.toList
  free : '\x00' ∉ name.toList
  short : name.utf8ByteSize ≤ nameLimit

theorem IsName.next {name : String} (isName : IsName name) (location : Location) :
    location.next name = location ++ [name] := by
  simp [Location.next, isName.notHere, isName.notAbove]

theorem after_of_isName (named : ∀ name ∈ steps, IsName name) :
    location.after steps = location ++ steps := by
  induction steps generalizing location with
  | nil => simp [Location.after]
  | cons name steps ih =>
    obtain ⟨first, others⟩ := List.forall_mem_cons.mp named
    have later := @ih (location ++ [name]) others
    rw [Location.after, List.foldl_cons, first.next, ← Location.after, later, List.append_assoc,
      List.singleton_append]

/-- Names are followed from the locations between the first and the last one. -/
theorem between_of_mem_passed (named : ∀ name ∈ steps, IsName name) {above : Location}
    (member : above ∈ location.passed steps) :
    location <+: above ∧ above <+: location ++ steps ∧ above ≠ location ++ steps := by
  induction steps generalizing location with
  | nil => cases member
  | cons name steps ih =>
    obtain ⟨first, others⟩ := List.forall_mem_cons.mp named
    rw [Location.passed, first.next] at member
    rcases List.mem_cons.mp member with rfl | later
    · exact ⟨List.prefix_rfl, List.prefix_append _ _, by simp⟩
    · obtain ⟨start, inside, different⟩ := ih others later
      rw [List.append_assoc, List.singleton_append] at inside different
      exact ⟨(List.prefix_append _ _).trans start, inside, different⟩

theorem pieces_path (named : ∀ name ∈ location, IsName name) (nonempty : location ≠ []) :
    Text.pieces '/' location.path = "" :: location := by
  have parts := Text.pieces_joined (fun name member => (named name member).undivided) nonempty
  rw [Text.pieces] at parts ⊢
  have chars : location.path.toList = [] ++ '/' :: (Text.joined '/' location).toList := by
    simp [Location.path]
  rw [chars, List.splitOn_append_cons_self, List.map_append, parts]
  rfl

theorem names_path (named : ∀ name ∈ location, IsName name) (nonempty : location ≠ []) :
    names location.path = location := by
  rw [names, pieces_path named nonempty, List.filter_cons_of_neg (by simp), List.filter_eq_self]
  exact fun name member => decide_eq_true (named name member).nonempty

theorem not_isClosed_path (named : ∀ name ∈ location, IsName name) (nonempty : location ≠ []) :
    isClosed location.path = false := by
  rw [Bool.eq_false_iff]
  intro closed
  have ends : location.path.toList.getLast? = some '/' := by
    simpa [isClosed] using closed
  obtain ⟨before, parts⟩ := List.getLast?_eq_some_iff.mp ends
  have pieces := pieces_path named nonempty
  rw [Text.pieces, parts, List.splitOn_append_cons_self, List.map_append] at pieces
  have last := congrArg List.getLast? pieces
  rw [List.splitOn_nil, List.map_singleton, List.getLast?_concat,
    List.getLast?_cons_of_ne_nil nonempty] at last
  exact (named "" (List.mem_of_getLast? last.symm)).nonempty rfl

/-- Every location below directories is the target of its path from the root, wherever the program
runs. -/
theorem target_path (named : ∀ name ∈ location, IsName name)
    (short : location.path.utf8ByteSize ≤ pathLimit)
    (opened : ∀ above, above <+: location → above ≠ location → files.get? above = some .directory)
    (free : files.get? location ≠ some .directory) :
    files.target location.path = .ok location := by
  have nonempty : location ≠ [] := by
    rintro rfl
    exact free rfl
  have unclosed := not_isClosed_path named nonempty
  refine target_eq_ok_iff.mpr ⟨unclosed, ?_, free⟩
  have root : files.start location.path = [] := by simp [start, Location.path]
  have given : IsGiven location.path := by
    refine ⟨fun nul => ?_, by simp [Location.path], short⟩
    have inside : '\x00' ∈ (Text.joined '/' location).toList := by
      simpa [Location.path] using nul
    rcases Text.mem_joined inside with same | ⟨name, member, within⟩
    · exact absurd same (by decide)
    · exact (named name member).free within
  rw [locate_of_not_isClosed unclosed, names_path named nonempty, follow_eq_ok_iff, root,
    walk_eq_ok_iff]
  refine ⟨given, fun above member => ?_, fun name member => (named name member).short, ?_⟩
  · obtain ⟨_, inside, different⟩ := between_of_mem_passed named member
    exact opened above inside different
  · exact after_of_isName named

end Files

end WorkflowKit
