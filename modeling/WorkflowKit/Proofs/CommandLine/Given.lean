import WorkflowKit.Proofs.Catalog.Printing
import WorkflowKit.Proofs.CommandLine.GitRuns

namespace WorkflowKit

namespace MatrixQuestion

variable {question : MatrixQuestion} {raw : String}

theorem replacement?_of_given (given : question.given = some raw) (nonempty : raw ≠ "") :
    question.replacement? = some (.given raw question.query.kind) := by
  simp [replacement?, given, nonempty, Option.filter]

/-- A question with a given value is answered by this value and nothing else happens. -/
theorem answer_of_given (given : question.given = some raw) (nonempty : raw ≠ "")
    (catalog : Catalog) (workplace : Workplace) :
    question.answer catalog workplace = .done (.value (.given raw question.query.kind)) := by
  simp only [answer, replacement?_of_given given nonempty]

end MatrixQuestion

namespace CommandLine

/-- Holds of the command lines that give a value of some kind and whose catalog loads. -/
def GivesValue (surroundings : Surroundings) (arguments : List String) (raw : String)
    (kind : Kind) : Prop :=
  ∃ question parameters catalog,
    Command.read surroundings.environment arguments = .ok (.matrix question parameters) ∧
      question.given = some raw ∧ question.query.kind = kind ∧
        Catalog.choose surroundings.workplace.files parameters = .ok catalog

variable {surroundings : Surroundings} {arguments : List String} {raw : String} {kind : Kind}

/-- The option takes all that follows its first equals sign. -/
theorem meetWord_override (reading : Reading) (raw : String) :
    reading.meetWord matrixForm ("--override=" ++ raw) =
      reading.meet ⟨"override", [], some 'o', .value⟩ (some raw) := by
  have chars : ("--override=" ++ raw).toList =
      '-' :: '-' :: ("override".toList ++ '=' :: raw.toList) := by simp
  have name : ("override".toList ++ '=' :: raw.toList).takeWhile (· ≠ '=') =
      "override".toList := by
    rw [List.takeWhile_append_of_pos (by simp), List.takeWhile_cons_of_neg (by simp),
      List.append_nil]
  have value : ("override".toList ++ '=' :: raw.toList).dropWhile (· ≠ '=') =
      '=' :: raw.toList := by
    rw [List.dropWhile_append_of_pos (by simp), List.dropWhile_cons_of_neg (by simp)]
  have known : matrixForm.named "override".toList =
      .ok ⟨"override", [], some 'o', .value⟩ := by decide +kernel
  simp only [Reading.meetWord, chars, Reading.meetNamed, name, value, known, bind, Except.bind,
    String.ofList_toList]

theorem ofArguments_override (raw : String) (arguments : List String) :
    Words.ofArguments matrixForm (("--override=" ++ raw) :: arguments) =
      Reading.words matrixForm ⟨[("override", some raw)], [], none⟩ arguments := by
  have noEnd : "--override=" ++ raw ≠ "--" := by
    intro same
    simpa using congrArg (fun s => s.toList.length) same
  have noCommand : matrixForm.commands.contains ("--override=" ++ raw) = false := rfl
  rw [Words.ofArguments, Reading.words, noCommand, Bool.and_false, if_neg Bool.false_ne_true,
    if_neg noEnd, meetWord_override]
  rfl

def kindOptions : Kind → List String
  | .matrix => []
  | .config => ["--config"]

/-- Every text can be given as a value of either kind. -/
theorem exists_givesValue (surroundings : Surroundings) (raw : String) (kind : Kind) :
    ∃ arguments, GivesValue surroundings arguments raw kind := by
  refine ⟨"matrix" :: ("--override=" ++ raw) :: "--parm-key" :: "os" :: kindOptions kind,
    ⟨⟨Catalog.usualDefault, "os", false, kind⟩, some raw, false, defaultDeviceTypes, none⟩, none,
    Catalog.builtin, ?_, rfl, rfl, rfl⟩
  change readMatrix _ = _
  rw [readMatrix, ofArguments_override]
  cases kind <;> rfl

/-- The command line prints the value that it gives, whatever the catalog has under the key. -/
theorem program_of_givesValue (gives : GivesValue surroundings arguments raw kind)
    (nonempty : raw ≠ "") :
    let done := program surroundings arguments
    done.status = 0 ∧ done.stdout = (Setting.given raw kind).toJson.octets ++ [0x0A] ∧
      done.told = [] ∧ done.gitRuns = [] := by
  intro done
  obtain ⟨question, parameters, catalog, accepted, given, rfl, chosen⟩ := gives
  have finished := program_matrix accepted
  rw [matrixAction_of_chosen chosen, MatrixQuestion.answer_of_given given nonempty] at finished
  have printed : printAnswer .open (.value (.given raw question.query.kind)) =
      ⟨(Setting.given raw question.query.kind).toJson.octets ++ [0x0A], none⟩ := Sink.print_open _
  simp only [Action.done, Except.map, printed] at finished
  simp only [done, finished]
  exact ⟨rfl, rfl, rfl, rfl⟩

/-- A value that is given and not empty is all that counts: every command line with it succeeds with
the same line, and neither runs git nor tells anything. The line holds a config value as it is, and
a matrix value as the only list without commas in its entries that makes up the value. So each such list is
printed for the value that it makes up, other than the list of one empty entry. -/
theorem program_given :
    (∀ (raw : String) (kind : Kind), raw ≠ "" →
      ∃ line value, 0x0A ∉ line ∧ Json.read line = .ok value ∧
        (∀ surroundings arguments, GivesValue surroundings arguments raw kind →
          let done := program surroundings arguments
          done.status = 0 ∧ done.stdout = line ++ [0x0A] ∧ done.told = [] ∧ done.gitRuns = []) ∧
        (∀ surroundings, ∃ arguments, GivesValue surroundings arguments raw kind) ∧
        (kind = .config → value = .text raw) ∧
        (kind = .matrix → ∃ entries : List String, value = .array (entries.map .text) ∧
          ∀ others : List String, others = entries ↔
            others ≠ [] ∧ (∀ entry ∈ others, ',' ∉ entry.toList) ∧
              Text.joined ',' others = raw)) ∧
      ∀ entries : List String, entries ≠ [] → (∀ entry ∈ entries, ',' ∉ entry.toList) →
        entries ≠ [""] → Text.joined ',' entries ≠ "" ∧
          ∀ surroundings arguments,
            GivesValue surroundings arguments (Text.joined ',' entries) .matrix →
            ∃ line, (program surroundings arguments).stdout = line ++ [0x0A] ∧
              Json.read line = .ok (.array (entries.map .text)) := by
  have read (value : Setting) : Json.read value.toJson.octets = .ok value.toJson :=
    value.admitted_toJson.read_octets (by decide)
  refine ⟨fun raw kind nonempty => ?_, fun entries nonempty free visible => ?_⟩
  · refine ⟨_, _, (IsDocument.octets (Setting.fits_toJson _)).lineFeed_not_mem, read _,
      fun surroundings arguments gives => program_of_givesValue gives nonempty,
      fun surroundings => exists_givesValue surroundings raw kind, ?_, ?_⟩
    · rintro rfl
      rfl
    · rintro rfl
      exact ⟨Text.pieces ',' raw, rfl, fun others => eq_comm.trans Text.pieces_eq_iff⟩
  · have given := Text.joined_ne_empty free nonempty visible
    refine ⟨given, fun surroundings arguments gives => ?_⟩
    obtain ⟨_, printed, _⟩ := program_of_givesValue gives given
    have pieces := Text.pieces_joined free nonempty
    rw [Setting.given, pieces] at printed
    exact ⟨_, printed, read (.list entries)⟩

/-- Commas at either end stand next to empty entries, blanks are kept, and a device that is asked for
does not matter. -/
theorem program_given_commas :
    let surroundings : Surroundings := ⟨[], ⟨none, .empty⟩, .unreachable⟩
    let arguments := ["matrix", "-d", "-k", "no device", "-o", ", a,", "-a", "no branch"]
    (∃ line, (program surroundings arguments).stdout = line ++ [0x0A] ∧
        Json.read line = .ok (.array [.text "", .text " a", .text ""])) ∧
      ∃ line, (program surroundings (arguments ++ ["-c"])).stdout = line ++ [0x0A] ∧
        Json.read line = .ok (.text ", a,") := by
  intro surroundings arguments
  have given : Text.joined ',' ["", " a", ""] = ", a," := by decide +kernel
  have gives : GivesValue surroundings arguments ", a," .matrix := ⟨_, _, _, rfl, rfl, rfl, rfl⟩
  have gives' : GivesValue surroundings (arguments ++ ["-c"]) ", a," .config :=
    ⟨_, _, _, rfl, rfl, rfl, rfl⟩
  refine ⟨?_, ?_⟩
  · have all := program_given.2 ["", " a", ""] (by simp) (by simp) (by simp)
    exact all.2 surroundings arguments (given ▸ gives)
  · obtain ⟨line, value, _, read, all, _, config, _⟩ :=
      program_given.1 ", a," .config (by decide)
    rw [config rfl] at read
    exact ⟨line, (all surroundings _ gives').2.1, read⟩

end CommandLine

end WorkflowKit
