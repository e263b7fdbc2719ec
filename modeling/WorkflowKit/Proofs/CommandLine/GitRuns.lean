import WorkflowKit.CommandLine.Program
import WorkflowKit.Proofs.Action
import WorkflowKit.Proofs.Changes.Asking
import WorkflowKit.Proofs.MatrixShape
import WorkflowKit.Proofs.Output
import WorkflowKit.Proofs.Text.Pieces

namespace WorkflowKit

namespace Changes

/-- Git can be started with a branch, and answers. An argument with a NUL cannot be handed to it. -/
def Starts (git : Option GitAnswer) (branch : String) (answer : GitAnswer) : Prop :=
  git = some answer ∧ '\x00' ∉ branch.toList

/-- The only way in which the program runs git: in its own directory. -/
def runFor (files : Files) (branch : String) : GitRun :=
  ⟨["diff", "--name-only", branch], files.workingDirectory⟩

section

variable {workplace : Workplace} {branch : String} {answer : GitAnswer}

theorem askGit_of_starts (starts : Starts workplace.git branch answer) :
    askGit workplace.git workplace.files workingDirectory branch =
      ⟨if answer.succeeded then .ok (listedPaths answer.stdout)
        else .error (.failed branch answer.stderr), some (runFor workplace.files branch)⟩ := by
  rw [starts.1]
  exact askGit_of_canAsk (canAsk_workingDirectory workplace.files starts.2) answer

theorem askGit_of_not_starts (stuck : ∀ answer, ¬ Starts workplace.git branch answer) :
    ∃ fault, askGit workplace.git workplace.files workingDirectory branch =
      ⟨.error fault, none⟩ := by
  have here : '\x00' ∉ workingDirectory.toList := by decide
  by_cases free : '\x00' ∈ branch.toList
  · exact ⟨.nulInArgument, by simp [askGit, free]⟩
  · cases installed : workplace.git with
    | none =>
      exact ⟨.notStarted .notFound, by simp [askGit, here, free, directory_workingDirectory]⟩
    | some answer => exact absurd ⟨installed, free⟩ (stuck answer)

theorem paths_of_succeeded (starts : Starts workplace.git branch answer)
    (succeeded : answer.succeeded) :
    ∃ event, paths workplace workingDirectory branch =
      ⟨.ok (listedPaths answer.stdout), [.event event], [runFor workplace.files branch]⟩ := by
  have asked := askGit_of_starts starts
  rw [if_pos succeeded] at asked
  simp only [paths, asked, Except.mapError]
  exact ⟨_, rfl⟩

theorem paths_of_failed (starts : Starts workplace.git branch answer)
    (failed : ¬ answer.succeeded) :
    ∃ fault, paths workplace workingDirectory branch =
      ⟨.error (.service (.git fault)), [], [runFor workplace.files branch]⟩ := by
  have asked := askGit_of_starts starts
  rw [if_neg failed] at asked
  simp only [paths, asked, Except.mapError]
  exact ⟨_, rfl⟩

theorem paths_of_not_starts (stuck : ∀ answer, ¬ Starts workplace.git branch answer) :
    ∃ fault, paths workplace workingDirectory branch = ⟨.error (.service (.git fault)), [], []⟩ := by
  obtain ⟨fault, asked⟩ := askGit_of_not_starts stuck
  simp only [paths, asked, Except.mapError]
  exact ⟨fault, rfl⟩

end

/-- A remark is made of a value that has the shape of its key, and of no other. -/
theorem remark_isSome_iff {key : String} {value : Setting} {changed : List String}
    (narrowed : key = apisKey ∨ key = platformKey) :
    ((narrow key value changed).1.remark key).isSome ↔
      (key = apisKey ∧ ∃ text, value = .text text) ∨
        key = platformKey ∧ ∃ entries, value = .list entries := by
  have others : platformKey ≠ apisKey := by decide
  rcases narrowed with rfl | rfl
  · cases value with
    | list entries => simp [narrow, narrow.unexpected, Outcome.remark, others.symm]
    | text text =>
      simp only [narrow, narrowApis, if_true]
      split <;> simp [Outcome.remark, Outcome.subject?]
  · cases value with
    | list entries =>
      simp only [narrow, narrowPlatforms, others, if_true, if_false]
      split <;> simp [Outcome.remark, Outcome.subject?, others]
    | text text => simp [narrow, narrow.unexpected, Outcome.remark, others]

/-- The entries of a value, those of a text between its commas. -/
def entriesOf : Setting → List String
  | .list entries => entries
  | .text text => Text.pieces ',' text

theorem shown_eq (value : Setting) : Outcome.shown value = Text.joined ',' (entriesOf value) := by
  cases value with
  | list entries => rfl
  | text text => exact (Text.joined_pieces ',' text).symm

def Outcome.IsNarrowed (outcome : Outcome) : Prop :=
  ∃ value, outcome = .autodetected value

/-- A remark is one introduction, another for a value that was narrowed, and the entries of the value
with commas. -/
theorem remark_form {key line : String} {outcome : Outcome}
    (remarked : outcome.remark key = some line) :
    ∃ introduction subject,
      line = introduction ++ subject ++ ": " ++ Text.joined ',' (entriesOf outcome.value) ∧
      (subject = "APIs" ∨ subject = "platforms") ∧
      (outcome.IsNarrowed ∧ introduction = "::warning::Autodetected " ∨
        ¬ outcome.IsNarrowed ∧ introduction = "Defaulting to all ") := by
  obtain ⟨subject, found, rest⟩ := Option.bind_eq_some_iff.mp remarked
  have named : subject = "APIs" ∨ subject = "platforms" := by
    unfold Outcome.subject? at found
    split at found
    · exact Or.inl (Option.some.inj found).symm
    · split at found
      · exact Or.inr (Option.some.inj found).symm
      · cases found
  cases outcome with
  | untouched value => cases rest
  | autodetected value =>
    refine ⟨"::warning::Autodetected ", subject, ?_, named, Or.inl ⟨⟨value, rfl⟩, rfl⟩⟩
    rw [← Option.some.inj rest, Outcome.value, ← shown_eq]
    rfl
  | defaulted value =>
    refine ⟨"Defaulting to all ", subject, ?_, named, Or.inr ⟨by rintro ⟨_, ⟨⟩⟩, rfl⟩⟩
    rw [← Option.some.inj rest, Outcome.value, ← shown_eq]
    rfl

/-- The remark is a warning for the workflow exactly if the value was narrowed. -/
theorem warning_prefix_iff {key line : String} {outcome : Outcome}
    (remarked : outcome.remark key = some line) :
    "::warning::".toList <+: line.toList ↔ outcome.IsNarrowed := by
  obtain ⟨introduction, subject, rfl, _, ⟨narrowed, rfl⟩ | ⟨kept, rfl⟩⟩ := remark_form remarked
  · refine iff_of_true ?_ narrowed
    simp only [String.toList_append, List.append_assoc]
    exact List.IsPrefix.trans (by decide) (List.prefix_append _ _)
  · refine iff_of_false ?_ kept
    simp only [String.toList_append, List.append_assoc]
    intro starts
    have first := starts.head (by decide)
    revert first
    simp

end Changes

namespace MatrixQuestion

open Changes

variable {question : MatrixQuestion} {catalog : Catalog} {workplace : Workplace} {value : Setting}
  {branch : String}

theorem narrowChanges_of_error (value : Setting) (compared : question.branch = some branch)
    (narrowed : question.query.key = apisKey ∨ question.query.key = platformKey)
    {failure : Failure} {runs : List GitRun}
    (asked : paths workplace workingDirectory branch = ⟨.error failure, [], runs⟩) :
    question.narrowChanges workplace value = ⟨.error failure, [], runs⟩ := by
  have stopped : narrowTo workplace workingDirectory branch question.query.key value =
      ⟨.error failure, [], runs⟩ := by
    rw [narrowTo, if_pos narrowed, asked]
    rfl
  simp only [narrowChanges, compared, stopped]
  rfl

theorem narrowChanges_of_ok (value : Setting) (compared : question.branch = some branch)
    (narrowed : question.query.key = apisKey ∨ question.query.key = platformKey)
    {changed : List String} {event : Event} {runs : List GitRun}
    (asked : paths workplace workingDirectory branch = ⟨.ok changed, [.event event], runs⟩) :
    ∃ events : List Event, question.narrowChanges workplace value =
      ⟨.ok (narrow question.query.key value changed).1.value,
        events.map .event ++
          ((narrow question.query.key value changed).1.remark question.query.key).toList.map
            .remark,
        runs⟩ := by
  refine ⟨event :: (narrow question.query.key value changed).2, ?_⟩
  have reached : narrowTo workplace workingDirectory branch question.query.key value =
      ⟨.ok (narrow question.query.key value changed).1,
        (event :: (narrow question.query.key value changed).2).map .event, runs⟩ := by
    rw [narrowTo, if_pos narrowed, asked]
    simp [bind, Action.andThen, pure, Action.done, Action.log]
  have told (line : Option String) :
      (line.map Notice.remark).toList = line.toList.map Notice.remark := by
    cases line <;> rfl
  simp only [narrowChanges, compared, reached]
  simp [bind, Action.andThen, pure, Action.done, Action.remark, told]

/-- Without a branch, and for the keys that are not narrowed, nothing is asked of git. -/
theorem narrowChanges_eq_done (workplace : Workplace) (value : Setting)
    (idle : question.branch = none ∨
      ¬ (question.query.key = apisKey ∨ question.query.key = platformKey)) :
    question.narrowChanges workplace value = .done value := by
  cases compared : question.branch with
  | none => simp only [narrowChanges, compared]
  | some branch =>
    have other : ¬ (question.query.key = apisKey ∨ question.query.key = platformKey) := by
      rcases idle with missing | other
      · rw [compared] at missing
        cases missing
      · exact other
    obtain ⟨notApis, notPlatform⟩ := not_or.mp other
    simp only [narrowChanges, compared, narrowTo, if_neg other, Action.done_bind, Outcome.remark,
      Outcome.subject?, if_neg notApis, if_neg notPlatform]
    rfl

theorem gitRuns_ask (catalog : Catalog) (query : Query) : (catalog.ask query).gitRuns = [] := by
  unfold Catalog.ask
  split <;> rfl

theorem ask_of_ok {query : Query} (found : (catalog.ask query).result = .ok value) :
    ∃ event, catalog.ask query = ⟨.ok value, [.event event], []⟩ := by
  unfold Catalog.ask at found ⊢
  split at found
  · rename_i finding _
    have same : finding.value = value := Except.ok.inj found
    exact ⟨query.event finding.layer, same ▸ rfl⟩
  · cases found

theorem gitRuns_narrowDevices (question : MatrixQuestion) (catalog : Catalog) (value : Setting) :
    (question.narrowDevices catalog value).gitRuns = [] := by
  cases value with
  | text text => rfl
  | list ids =>
    simp only [narrowDevices]
    split
    · unfold Registry.narrow
      split <;> rfl
    · rfl

/-- What a question has to be for its answer to depend on git. -/
structure ComparesFound (question : MatrixQuestion) (catalog : Catalog) (value : Setting)
    (branch : String) : Prop where
  found : (catalog.ask question.query).result = .ok value
  nothingGiven : question.given = none ∨ question.given = some ""
  noDevice : question.device = false
  compared : question.branch = some branch
  narrowed : question.query.key = apisKey ∨ question.query.key = platformKey

theorem replacement?_eq_none_iff :
    question.replacement? = none ↔ question.given = none ∨ question.given = some "" := by
  unfold replacement?
  cases question.given with
  | none => simp
  | some raw => by_cases empty : raw = "" <;> simp [empty, Option.filter]

/-- A question that compares nothing is answered alike whatever git is, and git is not run. -/
theorem answer_of_not_comparesFound (files : Files)
    (idle : ∀ value branch, ¬ question.ComparesFound catalog value branch)
    (git git' : Option GitAnswer) :
    question.answer catalog ⟨git, files⟩ = question.answer catalog ⟨git', files⟩ ∧
      (question.answer catalog ⟨git, files⟩).gitRuns = [] := by
  unfold answer
  split
  · exact ⟨rfl, rfl⟩
  · rename_i missing
    split
    · refine ⟨rfl, Action.gitRuns_bind_eq_nil ?_ fun _ => rfl⟩
      unfold Registry.askType
      split <;> rfl
    · rename_i noDevice
      cases asked : (catalog.ask question.query).result with
      | error failure =>
        rw [Action.bind_of_error asked, Action.bind_of_error asked]
        exact ⟨rfl, gitRuns_ask catalog question.query⟩
      | ok found =>
        -- What is left is a question that finds a value, so it has no branch or no key that is
        -- narrowed.
        have unasked : question.branch = none ∨
            ¬ (question.query.key = apisKey ∨ question.query.key = platformKey) := by
          cases compared : question.branch with
          | none => exact Or.inl rfl
          | some branch =>
            refine Or.inr fun narrowed => idle found branch ?_
            exact ⟨asked, replacement?_eq_none_iff.mp missing, Bool.eq_false_iff.mpr noDevice,
              compared, narrowed⟩
        simp only [narrowChanges_eq_done _ _ unasked, true_and]
        refine Action.gitRuns_bind_eq_nil (gitRuns_ask _ _) fun value => ?_
        exact Action.gitRuns_bind_eq_nil (gitRuns_narrowDevices _ _ _) fun _ => rfl

/-- Up to the narrowing, the answer to a question that compares what it finds is one event, which does
not depend on git. -/
theorem answer_of_comparesFound (compares : question.ComparesFound catalog value branch) :
    ∃ event, ∀ workplace, question.answer catalog workplace =
      ⟨(question.narrowChanges workplace value).result.map .value,
        .event event :: (question.narrowChanges workplace value).notices,
        (question.narrowChanges workplace value).gitRuns⟩ := by
  obtain ⟨event, asked⟩ := ask_of_ok compares.found
  have noDevices : question.query.key ∉ deviceKeys := by
    rcases compares.narrowed with key | key <;> rw [key] <;> decide
  have kept : question.narrowDevices catalog value = .done value := by
    cases value with
    | text text => rfl
    | list ids => simp only [narrowDevices, noDevices, and_false, if_false]
  have missing := replacement?_eq_none_iff.mpr compares.nothingGiven
  refine ⟨event, fun workplace => ?_⟩
  simp only [answer, missing, compares.noDevice, asked, Bool.false_eq_true, if_false]
  rw [Action.bind_of_ok rfl, kept, Action.done_bind]
  rw [Action.bind_pure]
  rfl

end MatrixQuestion

namespace CommandLine

open Changes

/-- The same surroundings with another git, or none. -/
def Surroundings.withGit (surroundings : Surroundings) (git : Option GitAnswer) : Surroundings :=
  { surroundings with workplace := ⟨git, surroundings.workplace.files⟩ }

/-- A question calls for git when its catalog loads, it is given no value, it asks for no device, its
key has a value, and this is one to be compared with a branch. -/
def CallsForGit (files : Files) (question : MatrixQuestion) (parameters : Option String)
    (value : Setting) (branch : String) : Prop :=
  ∃ catalog, Catalog.choose files parameters = .ok catalog ∧
    question.ComparesFound catalog value branch

def shownEvents (filter : LogFilter) (events : List Event) : List String :=
  (events.filter filter.shows).map shownEvent

/-- What the program does about a question that calls for git. -/
structure GitDecides (workplace : Workplace) (filter : LogFilter) (key : String) (value : Setting)
    (branch : String) (done : Completion) : Prop where
  runs : ∀ answer, Starts workplace.git branch answer →
    done.gitRuns = [runFor workplace.files branch]
  noRun : (∀ answer, ¬ Starts workplace.git branch answer) → done.gitRuns = []
  failed : (∀ answer, Starts workplace.git branch answer → ¬ answer.succeeded) →
    done.status = 1 ∧ done.stdout = [] ∧
      ∃ events, done.told = shownEvents filter events ++ ["service error: Service error"]
  succeeded : ∀ answer, Starts workplace.git branch answer → answer.succeeded →
    let outcome := (narrow key value (listedPaths answer.stdout)).1
    ∃ events remark, done.status = 0 ∧
      done.stdout = outcome.value.toJson.octets ++ [0x0A] ∧
      done.told = shownEvents filter events ++ remark.toList ∧
      (remark.isSome ↔
        (key = apisKey ∧ ∃ text, value = .text text) ∨
          key = platformKey ∧ ∃ entries, value = .list entries) ∧
      ∀ line, remark = some line →
        ("::warning::".toList <+: line.toList ↔ outcome.IsNarrowed) ∧
        ∃ introduction subject,
          line = introduction ++ subject ++ ": " ++ Text.joined ',' (entriesOf outcome.value) ∧
          (subject = "APIs" ∨ subject = "platforms") ∧
          (outcome.IsNarrowed ∧ introduction = "::warning::Autodetected " ∨
            ¬ outcome.IsNarrowed ∧ introduction = "Defaulting to all ")

theorem filterMap_told?_events (filter : LogFilter) (events : List Event) :
    (events.map Notice.event).filterMap (told? filter) = shownEvents filter events := by
  induction events with
  | nil => rfl
  | cons event events ih =>
    simp only [shownEvents, List.map_cons, List.filterMap_cons, told?, List.filter_cons] at ih ⊢
    cases filter.shows event <;> simp [ih]

@[simp]
theorem filterMap_told?_remarks (filter : LogFilter) (lines : List String) :
    (lines.map Notice.remark).filterMap (told? filter) = lines := by
  simp [List.filterMap_map, Function.comp_def, told?]

variable {surroundings : Surroundings} {arguments : List String} {question : MatrixQuestion}
  {parameters : Option String}

/-- A matrix command ends as the answer to its question does. -/
theorem program_matrix
    (accepted : Command.read surroundings.environment arguments =
      .ok (.matrix question parameters)) :
    let action := matrixAction surroundings question parameters
    let run := Run.ofAction surroundings
      ⟨action.result.map (printAnswer .open), action.notices, action.gitRuns⟩
    let filter := LogFilter.ofSetting (surroundings.environment.lookup filterVariable)
    program surroundings arguments =
      ⟨run.status, run.printed, run.told filter, run.gitRuns, run.arrived, run.files⟩ := by
  simp only [program, accepted, Command.run, Action.bind_pure]

theorem matrixAction_of_chosen {catalog : Catalog}
    (chosen : Catalog.choose surroundings.workplace.files parameters = .ok catalog) :
    matrixAction surroundings question parameters =
      question.answer catalog surroundings.workplace := by
  simp only [matrixAction, chosen]
  rfl

/-- A question that does not call for git is answered alike whatever git is, and git is not run. -/
theorem matrixAction_of_not_callsForGit
    (idle : ∀ value branch,
      ¬ CallsForGit surroundings.workplace.files question parameters value branch)
    (git : Option GitAnswer) :
    matrixAction (surroundings.withGit git) question parameters =
        matrixAction surroundings question parameters ∧
      (matrixAction surroundings question parameters).gitRuns = [] := by
  cases chosen : Catalog.choose surroundings.workplace.files parameters with
  | error failure =>
    simp only [matrixAction, Surroundings.withGit, chosen]
    exact ⟨rfl, rfl⟩
  | ok catalog =>
    obtain ⟨alike, quiet⟩ := question.answer_of_not_comparesFound surroundings.workplace.files
      (fun value branch compares => idle value branch ⟨catalog, chosen, compares⟩)
      surroundings.workplace.git git
    have chosen' : Catalog.choose (surroundings.withGit git).workplace.files parameters =
        .ok catalog := chosen
    rw [matrixAction_of_chosen chosen, matrixAction_of_chosen chosen']
    exact ⟨alike.symm, quiet⟩

variable {value : Setting} {branch : String} {runs : List GitRun}

/-- What comes of a command that git stops. -/
def Surroundings.stopped (surroundings : Surroundings) (runs : List GitRun) (events : List Event) :
    Completion :=
  let filter := LogFilter.ofSetting (surroundings.environment.lookup filterVariable)
  { status := 1
    stdout := []
    told := shownEvents filter events ++ [failureText]
    gitRuns := runs
    arrived := []
    files := surroundings.workplace.files }

/-- A narrowing that fails is all that comes of the command. -/
theorem program_of_narrowing_failed {fault : GitFault} {catalog : Catalog} {event : Event}
    (accepted : Command.read surroundings.environment arguments =
      .ok (.matrix question parameters))
    (chosen : Catalog.choose surroundings.workplace.files parameters = .ok catalog)
    (answered : ∀ workplace, question.answer catalog workplace =
      ⟨(question.narrowChanges workplace value).result.map .value,
        .event event :: (question.narrowChanges workplace value).notices,
        (question.narrowChanges workplace value).gitRuns⟩)
    (failed : question.narrowChanges surroundings.workplace value =
      ⟨.error (.service (.git fault)), [], runs⟩) :
    program surroundings arguments = surroundings.stopped runs [event] := by
  have finished := program_matrix accepted
  rw [matrixAction_of_chosen chosen, answered, failed] at finished
  rw [finished]
  have told := filterMap_told?_events
    (LogFilter.ofSetting (surroundings.environment.lookup filterVariable)) [event]
  exact congrArg (fun shown : List String => ({ surroundings.stopped runs [event] with
    told := shown ++ [failureText] } : Completion)) told

/-- A value that is narrowed is printed, after the remark about it. -/
theorem program_of_narrowed {narrowed : Setting} {events : List Event} {line : Option String}
    {catalog : Catalog}
    (accepted : Command.read surroundings.environment arguments =
      .ok (.matrix question parameters))
    (chosen : Catalog.choose surroundings.workplace.files parameters = .ok catalog)
    (compares : question.ComparesFound catalog value branch)
    (reached : question.narrowChanges surroundings.workplace value =
      ⟨.ok narrowed, events.map .event ++ line.toList.map .remark, runs⟩) :
    let done := program surroundings arguments
    let filter := LogFilter.ofSetting (surroundings.environment.lookup filterVariable)
    done.gitRuns = runs ∧ done.status = 0 ∧ done.stdout = narrowed.toJson.octets ++ [0x0A] ∧
      ∃ events, done.told = shownEvents filter events ++ line.toList := by
  intro done filter
  obtain ⟨event, answered⟩ := question.answer_of_comparesFound compares
  have finished := program_matrix accepted
  have printed : printAnswer .open (.value narrowed) = ⟨narrowed.toJson.octets ++ [0x0A], none⟩ :=
    Sink.print_open _
  rw [matrixAction_of_chosen chosen, answered, reached] at finished
  simp only [Except.map, printed] at finished
  have told : ((event :: events).map Notice.event ++ line.toList.map Notice.remark).filterMap
      (told? filter) = shownEvents filter (event :: events) ++ line.toList := by
    rw [List.filterMap_append, filterMap_told?_events, filterMap_told?_remarks]
  simp only [done, finished]
  exact ⟨rfl, rfl, rfl, event :: events, (List.append_nil _).trans told⟩

/-- Where git is called for, it is run once if it starts, and its answer decides what comes of the
command. -/
theorem gitDecides_of_callsForGit
    (accepted : Command.read surroundings.environment arguments =
      .ok (.matrix question parameters))
    (calls : CallsForGit surroundings.workplace.files question parameters value branch) :
    GitDecides surroundings.workplace
      (LogFilter.ofSetting (surroundings.environment.lookup filterVariable)) question.query.key
      value branch (program surroundings arguments) := by
  obtain ⟨catalog, chosen, compares⟩ := calls
  obtain ⟨event, answered⟩ := question.answer_of_comparesFound compares
  -- Git does not start, or it fails, or it succeeds; in the first two cases there is no value.
  by_cases starts : ∃ answer, Starts surroundings.workplace.git branch answer
  · obtain ⟨answer, starts⟩ := starts
    have only : ∀ other, Starts surroundings.workplace.git branch other → other = answer :=
      fun other also => Option.some.inj (also.1.symm.trans starts.1)
    by_cases succeeded : answer.succeeded
    · obtain ⟨asked, listed⟩ := paths_of_succeeded starts succeeded
      obtain ⟨events, reached⟩ :=
        MatrixQuestion.narrowChanges_of_ok value compares.compared compares.narrowed listed
      obtain ⟨ran, status, printed, told⟩ :=
        program_of_narrowed accepted chosen compares reached
      refine ⟨fun _ _ => ran, fun stuck => absurd starts (stuck answer),
        fun failed => absurd succeeded (failed answer starts), fun other also _ => ?_⟩
      obtain rfl := only other also
      obtain ⟨events, told⟩ := told
      exact ⟨events, _, status, printed, told, remark_isSome_iff compares.narrowed,
        fun line remarked => ⟨warning_prefix_iff remarked, remark_form remarked⟩⟩
    · obtain ⟨fault, asked⟩ := paths_of_failed starts succeeded
      rw [program_of_narrowing_failed accepted chosen answered
        (MatrixQuestion.narrowChanges_of_error value compares.compared compares.narrowed asked)]
      refine ⟨fun _ _ => rfl, fun stuck => absurd starts (stuck answer),
        fun _ => ⟨rfl, rfl, [event], rfl⟩, fun other also success => ?_⟩
      exact absurd (only other also ▸ success) succeeded
  · have stuck : ∀ answer, ¬ Starts surroundings.workplace.git branch answer :=
      fun answer also => starts ⟨answer, also⟩
    obtain ⟨fault, asked⟩ := paths_of_not_starts stuck
    rw [program_of_narrowing_failed accepted chosen answered
      (MatrixQuestion.narrowChanges_of_error value compares.compared compares.narrowed asked)]
    exact ⟨fun answer also => absurd also (stuck answer), fun _ => rfl,
      fun _ => ⟨rfl, rfl, [event], rfl⟩, fun answer also => absurd also (stuck answer)⟩

/-- Where git is not called for, another git makes no difference. -/
theorem program_withGit_of_not_callsForGit
    (accepted : Command.read surroundings.environment arguments =
      .ok (.matrix question parameters))
    (idle : ∀ value branch,
      ¬ CallsForGit surroundings.workplace.files question parameters value branch)
    (git : Option GitAnswer) :
    program (surroundings.withGit git) arguments = program surroundings arguments ∧
      (program surroundings arguments).gitRuns = [] := by
  obtain ⟨alike, quiet⟩ := matrixAction_of_not_callsForGit idle git
  have finished := program_matrix accepted
  have accepted' : Command.read (surroundings.withGit git).environment arguments =
      .ok (.matrix question parameters) := accepted
  have finished' := program_matrix accepted'
  rw [alike] at finished'
  refine ⟨finished'.trans finished.symm, ?_⟩
  rw [finished]
  exact quiet

/-- Git is run at most once, and only for a question that calls for it: then its answer decides the
status, the value printed and the remark. In every other case nothing depends on git. -/
theorem program_git
    (accepted : Command.read surroundings.environment arguments =
      .ok (.matrix question parameters)) :
    (∀ value branch,
        CallsForGit surroundings.workplace.files question parameters value branch →
        GitDecides surroundings.workplace
          (LogFilter.ofSetting (surroundings.environment.lookup filterVariable))
          question.query.key value branch (program surroundings arguments)) ∧
      ((∀ value branch,
          ¬ CallsForGit surroundings.workplace.files question parameters value branch) →
        ∀ git, program (surroundings.withGit git) arguments = program surroundings arguments ∧
          (program surroundings arguments).gitRuns = []) :=
  ⟨fun _ _ => gitDecides_of_callsForGit accepted, program_withGit_of_not_callsForGit accepted⟩

/-- A change of one interface narrows the usual interfaces to those that depend on it. -/
theorem program_git_auth :
    let surroundings : Surroundings :=
      ⟨[], ⟨some ⟨Octets.ofText "auth/a.cc\n", [], 0⟩, .empty⟩, .unreachable⟩
    let arguments := ["matrix", "-c", "-w", "integration_tests", "-k", "apis", "-a", "main"]
    let done := program surroundings arguments
    done.gitRuns = [runFor .empty "main"] ∧ done.status = 0 ∧
      done.stdout = Octets.ofText "\"auth,database,firestore,functions,storage\"\n" ∧
      done.told = ["::warning::Autodetected APIs: auth,database,firestore,functions,storage"] := by
  intro surroundings arguments done
  let question : MatrixQuestion :=
    ⟨⟨"integration_tests", "apis", false, .config⟩, none, false, "real,virtual", some "main"⟩
  have accepted : Command.read surroundings.environment arguments = .ok (.matrix question none) :=
    rfl
  have compares : question.ComparesFound Catalog.builtin
      (.text ("admob,analytics,auth,database,dynamic_links," ++
        "firestore,functions,installations,messaging,remote_config,storage")) "main" :=
    ⟨Except.eq_ok_of_toOption (by decide +kernel), Or.inl rfl, rfl, rfl, Or.inl rfl⟩
  have starts : Starts surroundings.workplace.git "main" ⟨Octets.ofText "auth/a.cc\n", [], 0⟩ :=
    ⟨rfl, by decide⟩
  have decides := (program_git accepted).1 _ _ ⟨Catalog.builtin, rfl, compares⟩
  exact ⟨decides.runs _ starts, by decide +kernel, by decide +kernel, by decide +kernel⟩

end CommandLine

end WorkflowKit
