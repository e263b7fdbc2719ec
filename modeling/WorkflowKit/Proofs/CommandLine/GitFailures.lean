import WorkflowKit.Proofs.Changes.Marks
import WorkflowKit.Proofs.CommandLine.GitRuns

namespace WorkflowKit

namespace Changes

theorem detail_failed (branch : String) (stderr : Octets) :
    (GitFault.failed branch stderr).detail =
      "git diff --name-only " ++ branch ++ " failed: " ++ stderr.lossyText := rfl

/-- The cause tells which branch it was, and what git said. -/
theorem contains_detail (branch : String) (stderr : Octets) :
    Contains branch (GitFault.failed branch stderr).detail ∧
      Contains stderr.lossyText (GitFault.failed branch stderr).detail := by
  rw [detail_failed]
  simp only [Contains, String.toList_append, List.append_assoc]
  refine ⟨List.infix_append' _ _ _, ?_⟩
  rw [← List.append_assoc, ← List.append_assoc]
  exact (List.suffix_append _ _).isInfix

/-- Holds of a failure of which the text tells the branch and what git said. -/
def Explains (failure : Failure) (branch : String) (stderr : Octets) : Prop :=
  Contains branch failure.message ∧ Contains stderr.lossyText failure.message

/-- The text of a failure is the same for every cause, so it explains only what is part of it
anyway. -/
theorem explains_iff (fault : GitFault) (branch : String) (stderr : Octets) :
    Explains (.service (.git fault)) branch stderr ↔
      Contains branch failureText ∧ Contains stderr.lossyText failureText := by
  rw [Explains, message_git]

end Changes

namespace CommandLine

open Changes

/-- Neither the status of a git that fails nor anything that it printed makes a difference. -/
theorem program_of_failed {surroundings : Surroundings} {arguments : List String}
    {question : MatrixQuestion} {parameters : Option String} {value : Setting} {branch : String}
    (accepted : Command.read surroundings.environment arguments =
      .ok (.matrix question parameters))
    (calls : CallsForGit surroundings.workplace.files question parameters value branch)
    (free : '\x00' ∉ branch.toList) :
    ∃ events, ∀ answer : GitAnswer, ¬ answer.succeeded →
      program (surroundings.withGit (some answer)) arguments =
        surroundings.stopped [runFor surroundings.workplace.files branch] events := by
  obtain ⟨catalog, chosen, compares⟩ := calls
  obtain ⟨event, answered⟩ := question.answer_of_comparesFound compares
  refine ⟨[event], fun answer failed => ?_⟩
  have starts : Starts (surroundings.withGit (some answer)).workplace.git branch answer :=
    ⟨rfl, free⟩
  obtain ⟨fault, asked⟩ := paths_of_failed starts failed
  have accepted' : Command.read (surroundings.withGit (some answer)).environment arguments =
      .ok (.matrix question parameters) := accepted
  have chosen' : Catalog.choose (surroundings.withGit (some answer)).workplace.files parameters =
      .ok catalog := chosen
  exact program_of_narrowing_failed accepted' chosen' answered
    (MatrixQuestion.narrowChanges_of_error value compares.compared compares.narrowed asked)

/-- A git that fails ends the narrowing of a value with a failure that has the branch and what git said as its
cause. The text of the failure is always the same, so it explains the failure only where both are parts of that
text. A matrix command then tells this text, prints nothing and ends with status 1, and does all
this alike for every git that fails. -/
theorem git_failure_text {branch : String} (free : '\x00' ∉ branch.toList) :
    (∀ files directory location answer key value, files.directory directory = .ok location →
      ¬ answer.succeeded → (key = apisKey ∨ key = platformKey) →
      ∃ fault, (narrowTo ⟨some answer, files⟩ directory branch key value).result =
          .error (.service (.git fault)) ∧
        (Contains branch fault.detail ∧ Contains answer.stderr.lossyText fault.detail) ∧
        (Failure.service (.git fault)).message = failureText ∧
        (Explains (.service (.git fault)) branch answer.stderr ↔
          Contains branch failureText ∧ Contains answer.stderr.lossyText failureText)) ∧
    ∀ (surroundings : Surroundings) arguments question parameters value,
      Command.read surroundings.environment arguments = .ok (.matrix question parameters) →
      CallsForGit surroundings.workplace.files question parameters value branch →
      ∃ events, ∀ answer : GitAnswer, ¬ answer.succeeded →
        program (surroundings.withGit (some answer)) arguments =
          surroundings.stopped [runFor surroundings.workplace.files branch] events := by
  refine ⟨fun files directory location answer key value located failed narrowed => ?_,
    fun surroundings arguments question parameters value accepted calls =>
      program_of_failed accepted calls free⟩
  have can : CanAsk files directory branch location := ⟨located, free⟩
  exact ⟨_, result_narrowTo_of_failed can failed narrowed value, contains_detail branch _,
    message_git _, explains_iff _ branch _⟩

/-- A branch that git does not know, and a directory that is no repository. -/
theorem git_failure_text_platform :
    let unknown : GitAnswer := ⟨[], Octets.ofText "fatal: ambiguous argument 'dev'\n", 128⟩
    let outside : GitAnswer := ⟨[], Octets.ofText "error: Not a git repository\n", 129⟩
    let surroundings (answer : GitAnswer) : Surroundings :=
      ⟨[], ⟨some answer, .empty⟩, .unreachable⟩
    let arguments := ["matrix", "-w", "integration_tests", "-k", "platform", "-a", "dev"]
    (∃ fault, (narrowTo ⟨some unknown, .empty⟩ workingDirectory "dev" platformKey (.list [])).result =
        .error (.service (.git fault)) ∧ Contains "dev" fault.detail ∧
        ¬ Explains (.service (.git fault)) "dev" unknown.stderr) ∧
      program (surroundings unknown) arguments = program (surroundings outside) arguments ∧
      (program (surroundings unknown) arguments).status = 1 := by
  intro unknown outside surroundings arguments
  have failed : ¬ unknown.succeeded := by decide
  obtain ⟨narrowed, ended⟩ := @git_failure_text "dev" (by decide)
  refine ⟨?_, ?_⟩
  · obtain ⟨fault, found, ⟨branch, _⟩, _, explains⟩ := narrowed .empty workingDirectory _ unknown
      platformKey (.list []) (directory_workingDirectory .empty) failed (Or.inr rfl)
    refine ⟨fault, found, branch, fun explained => ?_⟩
    exact absurd (explains.mp explained).1 (by decide +kernel)
  · let question : MatrixQuestion :=
      ⟨⟨"integration_tests", "platform", false, .matrix⟩, none, false, "real,virtual", some "dev"⟩
    have accepted : Command.read [] arguments = .ok (.matrix question none) := rfl
    have compares : question.ComparesFound Catalog.builtin
        (.list ["Desktop", "Android", "iOS", "tvOS"]) "dev" :=
      ⟨Except.eq_ok_of_toOption (by decide +kernel), Or.inl rfl, rfl, rfl, Or.inr rfl⟩
    obtain ⟨events, stopped⟩ := ended (surroundings unknown) arguments question none _ accepted
      ⟨Catalog.builtin, rfl, compares⟩
    have first := stopped unknown failed
    have second := stopped outside (by decide)
    exact ⟨first.trans second.symm, congrArg Completion.status first⟩

/-- What git says of a branch that it does not know is not told, and neither is the branch. -/
theorem bad_revision_untold :
    let answer : GitAnswer := ⟨[], Octets.ofText "fatal: bad revision 'main'", 128⟩
    ∃ failure, (narrowTo ⟨some answer, .empty⟩ workingDirectory "main" apisKey
        (.text "auth,database")).result = .error failure ∧
      ¬ Contains "main" failure.message ∧
      ¬ Contains answer.stderr.lossyText failure.message := by
  intro answer
  have can : CanAsk .empty workingDirectory "main" [] :=
    canAsk_workingDirectory .empty (by decide)
  refine ⟨_, result_narrowTo_of_failed can (by decide) (Or.inl rfl) _, ?_, ?_⟩
  · rw [message_git]
    decide +kernel
  · rw [message_git]
    decide +kernel

end CommandLine

end WorkflowKit
