import WorkflowKit.Matrix
import WorkflowKit.Proofs.Action
import WorkflowKit.Proofs.Changes.Monotone
import WorkflowKit.Proofs.Files.Paths

namespace WorkflowKit.Changes

/-- The text of every failure of git. -/
def failureText : String := "service error: Service error"

theorem message_git (fault : GitFault) : (Failure.service (.git fault)).message = failureText := rfl

/-- Git can be asked about a branch in a directory that is there. An argument with a NUL cannot be handed to
it. -/
structure CanAsk (files : Files) (directory branch : String) (location : Location) : Prop where
  located : files.directory directory = .ok location
  free : '\x00' ∉ branch.toList

/-- No directory is named by a text with a NUL. -/
theorem CanAsk.directory_free {files : Files} {directory branch : String} {location : Location}
    (can : CanAsk files directory branch location) : '\x00' ∉ directory.toList := by
  intro member
  have located := can.located
  simp [Files.directory, Files.locate, Files.follow, member, bind, Except.bind] at located

theorem directory_workingDirectory (files : Files) :
    files.directory workingDirectory = .ok files.workingDirectory := by
  have unclosed : Files.isClosed workingDirectory = false := by decide
  have names : Files.names workingDirectory = ["."] := by decide +kernel
  have given : Files.IsGiven workingDirectory := ⟨by decide, by decide, by decide⟩
  have here : files.get? files.workingDirectory = some .directory := by simp [Files.get?]
  have start : files.start workingDirectory = files.workingDirectory := if_neg (by decide)
  have located : files.locate workingDirectory = .ok files.workingDirectory := by
    rw [Files.locate_of_not_isClosed unclosed, Files.follow_eq_ok_iff, names, start,
      Files.walk_eq_ok_iff]
    exact ⟨given, by simp [Location.passed, here], by decide, rfl⟩
  simp [Files.directory, located, Files.checkDirectory_eq_ok_iff.mpr here, bind, Except.bind]

/-- Git can always be asked where the program runs. -/
theorem canAsk_workingDirectory (files : Files) {branch : String} (free : '\x00' ∉ branch.toList) :
    CanAsk files workingDirectory branch files.workingDirectory :=
  ⟨directory_workingDirectory files, free⟩

section

variable {files : Files} {directory branch : String} {location : Location} {answer : GitAnswer}

/-- Git is run once, and its answer alone decides what is reported. -/
theorem askGit_of_canAsk (can : CanAsk files directory branch location) (answer : GitAnswer) :
    askGit (some answer) files directory branch =
      ⟨if answer.succeeded then .ok (listedPaths answer.stdout)
        else .error (.failed branch answer.stderr), some ⟨gitArguments branch, location⟩⟩ := by
  simp only [askGit, List.contains_eq_mem, can.directory_free, can.free, can.located, decide_false,
    Bool.or_self, Bool.false_eq_true, if_false]
  split <;> rfl

theorem result_paths_of_succeeded (can : CanAsk files directory branch location)
    (succeeded : answer.succeeded) :
    (paths ⟨some answer, files⟩ directory branch).result = .ok (listedPaths answer.stdout) := by
  simp only [paths, askGit_of_canAsk can, if_pos succeeded, Except.mapError]

theorem result_paths_of_failed (can : CanAsk files directory branch location)
    (failed : ¬ answer.succeeded) :
    (paths ⟨some answer, files⟩ directory branch).result =
      .error (.service (.git (.failed branch answer.stderr))) := by
  simp only [paths, askGit_of_canAsk can, if_neg failed, Except.mapError]

/-- A value is narrowed to the paths that git lists. -/
theorem result_narrowTo_of_succeeded (can : CanAsk files directory branch location)
    (succeeded : answer.succeeded) (key : String) (value : Setting) :
    (narrowTo ⟨some answer, files⟩ directory branch key value).result =
      .ok (narrow key value (listedPaths answer.stdout)).1 := by
  unfold narrowTo
  split
  · rw [Action.bind_of_ok (result_paths_of_succeeded can succeeded)]
    rfl
  · rename_i other
    have others : ¬ Narrowable key value := fun narrowable =>
      other (narrowable.imp And.left And.left)
    rw [narrow_of_not_narrowable others]
    rfl

/-- Where git fails, a value that is to be narrowed is lost. -/
theorem result_narrowTo_of_failed (can : CanAsk files directory branch location)
    (failed : ¬ answer.succeeded) {key : String} (narrowed : key = apisKey ∨ key = platformKey)
    (value : Setting) :
    (narrowTo ⟨some answer, files⟩ directory branch key value).result =
      .error (.service (.git (.failed branch answer.stderr))) := by
  rw [narrowTo, if_pos narrowed, Action.bind_of_error (result_paths_of_failed can failed)]

end

end WorkflowKit.Changes
