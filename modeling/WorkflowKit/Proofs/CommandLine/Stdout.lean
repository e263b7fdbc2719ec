import WorkflowKit.Proofs.CommandLine.GitRuns
import WorkflowKit.Proofs.GitHub.Plan
import WorkflowKit.Proofs.Json.Reading
import WorkflowKit.Proofs.Text.Octets

namespace WorkflowKit

/-- A line that holds one JSON text. -/
def IsDocument (line : Octets) : Prop :=
  ∃ text, line = Octets.ofChars text ∧ Json.Compact text

namespace IsDocument

theorem lineFeed_not_mem {line : Octets} (document : IsDocument line) : 0x0A ∉ line := by
  obtain ⟨text, rfl, compact⟩ := document
  rw [Octets.lineFeed_mem_ofChars_iff]
  intro member
  exact absurd (compact.printable _ member) (by decide)

theorem octets {value : Json} (fits : value.Fits) : IsDocument value.octets :=
  ⟨value.chars, rfl, Json.compact_chars fits⟩

end IsDocument

theorem Json.fits_ofTexts (texts : List String) : (Json.ofTexts texts).Fits :=
  .array (List.forall_mem_map.mpr fun text _ => .text text)

theorem Setting.fits_toJson (value : Setting) : value.toJson.Fits := by
  cases value with
  | list entries => exact Json.fits_ofTexts entries
  | text value => exact .text value

namespace MatrixQuestion

/-- Holds if the type of a device is the answer, and no value is given in its place. -/
def AsksType (question : MatrixQuestion) : Prop :=
  question.device ∧ (question.given = none ∨ question.given = some "")

/-- A question for a type is answered with a type, and every other with a value. -/
theorem answer_form {question : MatrixQuestion} {catalog : Catalog} {workplace : Workplace}
    {answer : MatrixAnswer} (run : (question.answer catalog workplace).result = .ok answer) :
    (question.AsksType ∧ ∃ type, answer = .deviceType type) ∨
      ¬ question.AsksType ∧ ∃ value, answer = .value value := by
  have given := question.replacement?_eq_none_iff
  cases replaced : question.replacement? with
  | some value =>
    refine Or.inr ⟨fun asks => ?_, value, ?_⟩
    · rw [given.mpr asks.2] at replaced
      cases replaced
    · simp only [MatrixQuestion.answer, replaced, Action.result_done, Except.ok.injEq] at run
      exact run.symm
  | none =>
    have nothing := given.mp replaced
    cases device : question.device with
    | true =>
      simp only [MatrixQuestion.answer, replaced, device, if_true] at run
      obtain ⟨type, _, same⟩ := Action.result_bind_ok_iff.mp run
      exact Or.inl ⟨⟨device, nothing⟩, type, (Except.ok.inj same).symm⟩
    | false =>
      obtain ⟨_, _, value, _, _, _, same⟩ := answer_steps replaced device run
      exact Or.inr ⟨fun asks => by simp [AsksType, device] at asks, value, same⟩

end MatrixQuestion

namespace GitHub

/-- Numbers that are read are of the format, so every value of a list can be printed again. -/
theorem fits_of_listOf {shape : Json.Shape} {body : Octets} {values : List Json}
    (read : listOf shape body = .ok values) : ∀ value ∈ values, value.Fits := by
  obtain ⟨fields, found, rfl⟩ := Except.map_eq_ok_iff.mp read
  have fits := Json.fits_of_readRecord found
  cases fields with
  | nil => exact List.forall_mem_nil _
  | cons first others =>
    have only := fits first List.mem_cons_self
    cases only with
    | array each => exact each
    | _ => exact List.forall_mem_nil _

/-- The calls of which the outcome is printed give a value. -/
theorem Call.value_of_read {call : Call} (prints : CommandLine.printsOutcome call) {body : Octets}
    {outcome : Outcome} {summary : String} (read : call.read body = .ok (outcome, summary)) :
    ∃ value, outcome = .value value ∧ value.Fits := by
  have firstValue
      (found : (do let value ← Json.readFirst body; .ok (.value value, GitHub.summary value)) =
        (.ok (outcome, summary) : Except Json.Error (Outcome × String))) :
      ∃ value, outcome = .value value ∧ value.Fits := by
    obtain ⟨value, inside, same⟩ := Except.bind_eq_ok_iff.mp found
    cases same
    exact ⟨value, rfl, Json.fits_of_readFirst inside⟩
  cases call with
  | createIssue => exact firstValue read
  | listComments => exact firstValue read
  | searchIssues =>
    obtain ⟨values, inside, same⟩ := Except.bind_eq_ok_iff.mp read
    cases same
    exact ⟨.array values, rfl, .array (fits_of_listOf inside)⟩
  | listArtifacts =>
    obtain ⟨values, inside, same⟩ := Except.bind_eq_ok_iff.mp read
    cases same
    exact ⟨.array values, rfl, .array (fits_of_listOf inside)⟩
  | _ => cases prints

theorem Client.value_of_perform {client : Client} {call : Call}
    (prints : CommandLine.printsOutcome call) {session : Session} {outcome : Outcome}
    (done : (client.perform call session).1 = .ok outcome) :
    ∃ value, outcome = .value value ∧ value.Fits := by
  have only : call.isDownload = false := by
    cases call with
    | downloadArtifact => cases prints
    | _ => rfl
  cases made : client.requestOf call with
  | error failure =>
    rw [perform_of_error made] at done
    cases done
  | ok request =>
    rw [perform_of_not_isDownload only made] at done
    split at done
    · cases done
    · rename_i response after _
      unfold finish at done
      split at done
      · cases done
      · rename_i summary answered
        cases done
        unfold Call.answered at answered
        split at answered
        · exact Call.value_of_read prints (Except.mapError_eq_ok_iff.mp answered)
        · cases answered

end GitHub

namespace CommandLine

/-- Holds of the operations of which the outcome is printed. -/
def Operation.Prints : Operation → Prop
  | .call (.createIssue ..) | .call (.searchIssues _) | .call (.listComments _)
  | .call (.listArtifacts _) => True
  | _ => False

namespace Command

/-- Holds of the commands that print something when they succeed. -/
def Prints : Command → Prop
  | matrix .. | buildConfig .. => True
  | gitHub _ operation => operation.Prints

/-- Holds of the lines that a command can print. -/
def IsOutput (line : Octets) : Command → Prop
  | matrix question _ =>
    (question.AsksType → line = Octets.ofText "real" ∨ line = Octets.ofText "virtual") ∧
      (¬ question.AsksType → IsDocument line)
  | buildConfig .. | gitHub .. => IsDocument line

/-- A run ends with one line printed, or with nothing. -/
inductive Ends (command : Command) (run : Run) : Prop
  | line (line : Octets) : run.failure = none → command.Prints → command.IsOutput line →
      0x0A ∉ line → run.printed = line ++ [0x0A] → Ends command run
  | quiet : run.failure = none → ¬ command.Prints → run.printed = [] → Ends command run
  | failed : run.failure ≠ none → run.printed = [] → Ends command run

/-- An action ends as the command when what it prints is one line of the command. -/
theorem ends_ofAction (command : Command) (prints : command.Prints) (surroundings : Surroundings)
    (action : Action Printed)
    (each : ∀ printed, action.result = .ok printed →
      ∃ line, printed = ⟨line ++ [0x0A], none⟩ ∧ command.IsOutput line ∧ 0x0A ∉ line) :
    command.Ends (.ofAction surroundings action) := by
  cases result : action.result with
  | error failure =>
    refine .failed ?_ ?_
    · simp [Run.ofAction, result]
    · simp [Run.ofAction, result, Except.toOption]
  | ok printed =>
    obtain ⟨line, rfl, output, free⟩ := each printed result
    refine .line line ?_ prints output free ?_
    · simp [Run.ofAction, result]
    · simp [Run.ofAction, result, Except.toOption]

/-- A matrix command prints one line or fails without printing. -/
theorem ends_matrix (surroundings : Surroundings) (question : MatrixQuestion)
    (parameters : Option String) :
    Ends (.matrix question parameters)
      ((Command.matrix question parameters).run surroundings) := by
  refine ends_ofAction (.matrix question parameters) trivial surroundings _ fun printed run => ?_
  obtain ⟨answer, answered, same⟩ := Action.result_bind_ok_iff.mp run
  obtain ⟨catalog, _, answered⟩ := Action.result_bind_ok_iff.mp answered
  obtain rfl : printAnswer .open answer = printed := Except.ok.inj same
  rcases MatrixQuestion.answer_form answered with ⟨asks, type, rfl⟩ | ⟨other, value, rfl⟩
  · refine ⟨Octets.ofText type.name, Sink.printType_open type, ⟨fun _ => ?_, absurd asks⟩, ?_⟩
    · cases type with
      | real => exact Or.inl rfl
      | virtual => exact Or.inr rfl
    · cases type <;> decide
  · have document := IsDocument.octets value.fits_toJson
    exact ⟨value.toJson.octets, Sink.print_open _, ⟨fun asks => absurd asks other, fun _ => document⟩,
      document.lineFeed_not_mem⟩

theorem ends_buildConfig (surroundings : Surroundings) (platform : String)
    (parameters : Option String) :
    Ends (.buildConfig platform parameters)
      ((Command.buildConfig platform parameters).run surroundings) := by
  refine ends_ofAction (.buildConfig platform parameters) trivial surroundings _ fun printed run => ?_
  obtain ⟨keys, _, same⟩ := Action.result_bind_ok_iff.mp run
  obtain rfl : Sink.open.print (.ofTexts keys) = printed := Except.ok.inj same
  have document := IsDocument.octets (Json.fits_ofTexts keys)
  exact ⟨_, Sink.print_open _, document, document.lineFeed_not_mem⟩

theorem prints_iff_of_toCall {operation : Operation} {call : GitHub.Call}
    (made : operation.toCall = .ok call) : operation.Prints ↔ printsOutcome call := by
  cases operation with
  | call made' =>
    obtain rfl : made' = call := Except.ok.inj made
    cases made' <;> simp [Operation.Prints, printsOutcome]
  | update issue data =>
    have other : printsOutcome call = false := by
      simp only [Operation.toCall] at made
      split at made <;> cases made
      rfl
    simp [Operation.Prints, other]

/-- A call prints its value if it has one to print. The other calls print nothing, even when they
succeed. -/
theorem ends_gitHub (surroundings : Surroundings) (access : GitHub.Access) (operation : Operation) :
    Ends (.gitHub access operation) ((Command.gitHub access operation).run surroundings) := by
  unfold Command.run runGitHub
  dsimp only
  split
  · exact .failed (Option.some_ne_none _) rfl
  · rename_i client call prepared
    obtain ⟨_, _, prepared⟩ := Except.bind_eq_ok_iff.mp prepared
    obtain ⟨made, converted, same⟩ := Except.bind_eq_ok_iff.mp prepared
    cases same
    have prints := prints_iff_of_toCall converted
    split
    · exact .failed (Option.some_ne_none _) rfl
    · rename_i outcome done
      cases printed : printsOutcome call with
      | true =>
        obtain ⟨value, rfl, fits⟩ := GitHub.Client.value_of_perform printed done
        have document := IsDocument.octets fits
        have whole : printedOutcome call (.value value) = ⟨value.octets ++ [0x0A], none⟩ := by
          simp [printedOutcome, printed]
        rw [whole]
        exact .line value.octets rfl (prints.mpr printed) document document.lineFeed_not_mem rfl
      | false =>
        have nothing : printedOutcome call outcome = ⟨[], none⟩ := by
          cases outcome <;> simp [printedOutcome, printed]
        rw [nothing]
        refine .quiet rfl (fun shown => ?_) rfl
        rw [prints.mp shown] at printed
        cases printed

theorem ends (surroundings : Surroundings) (command : Command) :
    command.Ends (command.run surroundings) := by
  cases command with
  | matrix question parameters => exact ends_matrix surroundings question parameters
  | buildConfig platform parameters => exact ends_buildConfig surroundings platform parameters
  | gitHub access operation => exact ends_gitHub surroundings access operation

end Command

theorem Run.status_eq_zero_iff (run : Run) : run.status = 0 ↔ run.failure = none := by
  unfold status
  split
  · simp_all
  · simp_all
  · simp_all

/-- What is printed is nothing or one line, and it is a line exactly if the command succeeds and is
one that prints. -/
theorem program_stdout {surroundings : Surroundings} {arguments : List String} {command : Command}
    (accepted : Command.read surroundings.environment arguments = .ok command) :
    let done := program surroundings arguments
    (done.stdout = [] ∨
        ∃ line, done.stdout = line ++ [0x0A] ∧ 0x0A ∉ line ∧ command.IsOutput line) ∧
      (done.status ≠ 0 → done.stdout = []) ∧
      (done.stdout ≠ [] ↔ done.status = 0 ∧ command.Prints) := by
  intro done
  have status : done.status = 0 ↔ (command.run surroundings).failure = none := by
    simp only [done, program, accepted, Run.status_eq_zero_iff]
  have stdout : done.stdout = (command.run surroundings).printed := by
    simp only [done, program, accepted]
  rw [status, stdout, ne_eq, status]
  cases Command.ends surroundings command with
  | line line succeeded prints output free printed =>
    refine ⟨Or.inr ⟨line, printed, free, output⟩, absurd succeeded, ?_⟩
    rw [printed]
    exact iff_of_true (List.append_ne_nil_of_right_ne_nil _ (List.cons_ne_nil _ _))
      ⟨succeeded, prints⟩
  | quiet succeeded silent printed =>
    refine ⟨Or.inl printed, fun _ => printed, ?_⟩
    exact iff_of_false (absurd printed) fun both => silent both.2
  | failed failed printed =>
    refine ⟨Or.inl printed, fun _ => printed, ?_⟩
    exact iff_of_false (absurd printed) fun both => failed both.1

/-- The answer of a server is printed on one line, whatever blanks and escapes it has. -/
theorem program_stdout_comments :
    let answer := "[ \x7b\"score\": 1E22,\n \"body\": \"a\\nb\"\x7d ]\n"
    let network : Http.Network := ⟨["api.github.com"], [⟨200, [], Octets.ofText answer⟩]⟩
    let surroundings : Surroundings := ⟨[], ⟨none, .empty⟩, network⟩
    let done := program surroundings ["github", "list-comments", "--issue", "1"]
    done.status = 0 ∧
      done.stdout = Octets.ofText "[\x7b\"body\":\"a\\nb\",\"score\":1e+22\x7d]\n" ∧
      ∃ line, done.stdout = line ++ [0x0A] ∧ 0x0A ∉ line ∧ IsDocument line := by
  intro answer network surroundings done
  have accepted : Command.read surroundings.environment
      ["github", "list-comments", "--issue", "1"] =
        .ok (.gitHub ⟨GitHub.usualAddress, GitHub.usualRepository, none⟩
          (.call (.listComments 1))) := rfl
  have printed : done.stdout =
      Octets.ofText "[\x7b\"body\":\"a\\nb\",\"score\":1e+22\x7d]\n" := by
    decide +kernel
  refine ⟨by decide +kernel, printed, ?_⟩
  exact (program_stdout accepted).1.resolve_left (by rw [printed]; decide)

end CommandLine

end WorkflowKit
