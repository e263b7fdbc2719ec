import WorkflowKit.Proofs.Files.Writing
import WorkflowKit.Proofs.GitHub.Plan

namespace WorkflowKit.GitHub.Client

/-- Why an artifact is not saved at a path, with the requests that were answered until then. -/
inductive Unsaved (client : Client) (call : Call) (path : String) (network : Http.Network)
    (files : Files) (deliveries : List (Http.Request × Http.Response)) : Failure → Prop
  | noToken : client.token = none → deliveries = [] →
      Unsaved client call path network files deliveries (.noToken call.name)
  | noRoute {fault} : Http.Uri.parse (call.route client.repository) = .error fault →
      deliveries = [] →
      Unsaved client call path network files deliveries (.gitHub call.name .badAddress)
  | lost {request fault after} : client.requestOf call = .ok request →
      (client.plan call).Run (.first call request) network deliveries (.error fault) after →
      Unsaved client call path network files deliveries (.gitHub call.name (.transport fault))
  | unreadableLocation {delivery value} : deliveries.getLast? = some delivery →
      delivery.2.header? "location" = some value → headerText? value = none →
      Unsaved client call path network files deliveries (.service .badRedirect)
  | noLocation {delivery value location fault} : deliveries.getLast? = some delivery →
      delivery.2.header? "location" = some value → headerText? value = some location →
      Http.Uri.parse location = .error fault →
      Unsaved client call path network files deliveries (.gitHub call.name .badAddress)
  | refused {delivery} : deliveries.getLast? = some delivery → ¬ delivery.2.isSuccess →
      Unsaved client call path network files deliveries
        (.gitHub call.name (reportOf delivery.2))
  | unwritten {delivery fault} : deliveries.getLast? = some delivery → delivery.2.isSuccess →
      files.write path delivery.2.body = .error fault →
      Unsaved client call path network files deliveries (.file path fault)

/-- A download that a response ends: no request is sent after it, the file gets exactly the body of a
success, and what is no success fails with its report. -/
inductive EndedBy (call : Call) (path : String) (response : Http.Response) (before : Session) :
    Except Failure Outcome × Session → Prop
  | saved {after : Session} : response.isSuccess →
      after.traffic.arrived = before.traffic.arrived →
      before.files.Written path response.body after.files →
      EndedBy call path response before (.ok (.saved response.body.length), after)
  | unwritten {fault : FileFault} {after : Session} : response.isSuccess →
      before.files.write path response.body = .error fault →
      after.traffic.arrived = before.traffic.arrived → after.files = before.files →
      EndedBy call path response before (.error (.file path fault), after)
  | refused {after : Session} : ¬ response.isSuccess →
      after.traffic.arrived = before.traffic.arrived → after.files = before.files →
      EndedBy call path response before (.error (.gitHub call.name (reportOf response)), after)

/-- How a download ends: the file has just the body of the last response, which is a success, or
nothing has changed and there is a reason. -/
def Downloaded (client : Client) (call : Call) (path : String) (network : Http.Network)
    (files : Files) (deliveries : List (Http.Request × Http.Response)) :
    Except Failure Outcome × Session → Prop
  | (.ok outcome, after) => ∃ delivery, deliveries.getLast? = some delivery ∧
      delivery.2.isSuccess ∧ outcome = .saved delivery.2.body.length ∧
      files.Written path delivery.2.body after.files
  | (.error failure, after) => after.files = files ∧
      Unsaved client call path network files deliveries failure

/-- Holds if what is done from a session on, after some deliveries, sends the rest of the requests
and ends a download. -/
def EndsDownload (client : Client) (call : Call) (path : String) (network : Http.Network)
    (deliveries : List (Http.Request × Http.Response)) (session : Session)
    (ended : Except Failure Outcome × Session) : Prop :=
  ∃ sent, ended.2.traffic.arrived = session.traffic.arrived ++ sent ∧
    Downloaded client call path network session.files
      (deliveries ++ session.traffic.network.answered sent) ended

variable {client : Client} {call : Call} {artifact : Nat} {path : String} {session : Session}
  {network : Http.Network} {deliveries : List (Http.Request × Http.Response)}

theorem stopped_ends {failure : Failure} {after : Session}
    (arrived : after.traffic.arrived = session.traffic.arrived)
    (files : after.files = session.files)
    (reason : Unsaved client call path network session.files deliveries failure) :
    EndsDownload client call path network deliveries session (.error failure, after) := by
  refine ⟨[], by rw [arrived, List.append_nil], files, ?_⟩
  rwa [Http.Network.answered, List.append_nil]

/-- A file is touched only after the response was found to be a success. -/
theorem save_endedBy (response : Http.Response) (session : Session) :
    EndedBy (.downloadArtifact artifact path) path response session
      (client.save (.downloadArtifact artifact path) path response session) := by
  by_cases success : response.isSuccess
  · cases written : session.files.write path response.body with
    | error fault =>
      simp only [save, Call.answered, success, Call.read, Except.mapError, written, if_true]
      exact .unwritten success written rfl rfl
    | ok files =>
      simp only [save, Call.answered, success, Call.read, Except.mapError, written, if_true]
      exact .saved success rfl (Files.written_of_write written)
  · simp only [save, Call.answered, success]
    exact .refused success rfl rfl

/-- Saving ends with the body of the last response in the file, or with all files as they were and
a reason. -/
theorem save_ends {delivery : Http.Request × Http.Response}
    (last : deliveries.getLast? = some delivery) :
    EndsDownload client (.downloadArtifact artifact path) path network deliveries session
      (client.save (.downloadArtifact artifact path) path delivery.2 session) := by
  have ended : EndedBy (.downloadArtifact artifact path) path delivery.2 session
      (client.save (.downloadArtifact artifact path) path delivery.2 session) :=
    save_endedBy delivery.2 session
  generalize client.save (.downloadArtifact artifact path) path delivery.2 session = done at ended
  cases ended with
  | saved success arrived written =>
    refine ⟨[], arrived.trans (List.append_nil _).symm, delivery, ?_, success, rfl, written⟩
    rw [Http.Network.answered, List.append_nil, last]
  | unwritten success written arrived files =>
    exact stopped_ends arrived files (.unwritten last success written)
  | refused failed arrived files => exact stopped_ends arrived files (.refused last failed)

/-- An exchange of a call, and what is done with its response. -/
def exchangeThen (call : Call) (request : Http.Request)
    (next : Http.Response → Session → Except Failure Outcome × Session) (session : Session) :
    Except Failure Outcome × Session :=
  match session.exchange call request with
  | (.error failure, session) => (.error failure, session)
  | (.ok response, session) => next response session

/-- An exchange changes no file, so a download ends as what is done with the response does. -/
theorem exchangeThen_ends {request : Http.Request}
    {next : Http.Response → Session → Except Failure Outcome × Session}
    (lost : ∀ {sent fault after},
      Http.Leg.plan.Run (.first request) session.traffic.network sent (.error fault) after →
      Unsaved client call path network session.files (deliveries ++ sent)
        (.gitHub call.name (.transport fault)))
    (ends : ∀ {sent response} {middle : Session},
      Http.Leg.plan.Run (.first request) session.traffic.network sent (.ok response)
        middle.traffic.network →
      EndsDownload client call path network (deliveries ++ sent) middle (next response middle)) :
    EndsDownload client call path network deliveries session
      (exchangeThen call request next session) := by
  unfold exchangeThen
  obtain ⟨sent, middle, files, arrived, ⟨fault, exchanged, run⟩ | ⟨response, exchanged, run⟩⟩ :=
    exchange_cases call session request
  · rw [exchanged]
    refine ⟨sent.map Prod.fst, arrived, files, ?_⟩
    rw [run.answered]
    exact lost run
  · rw [exchanged]
    obtain ⟨rest, arrived', downloaded⟩ := ends run
    refine ⟨sent.map Prod.fst ++ rest, ?_, ?_⟩
    · rw [← List.append_assoc, ← arrived]
      exact arrived'
    · rw [run.answered_append, ← List.append_assoc, ← files]
      exact downloaded

/-- What is left of a download after its first exchange. -/
def followAndSave (client : Client) (call : Call) (path : String) (response : Http.Response)
    (session : Session) : Except Failure Outcome × Session :=
  match client.follow call response session with
  | (.error failure, session) => (.error failure, session)
  | (.ok response, session) => client.save call path response session

/-- What is saved is the body of the last response, wherever the location led. -/
theorem followAndSave_ends {request : Http.Request} {response : Http.Response}
    (made : client.requestOf (.downloadArtifact artifact path) = .ok request)
    (run : Http.Leg.plan.Run (.first request) network deliveries (.ok response)
      session.traffic.network) :
    EndsDownload client (.downloadArtifact artifact path) path network deliveries session
      (client.followAndSave (.downloadArtifact artifact path) path response session) := by
  obtain ⟨asked, last⟩ := run.getLast?_of_ok
  -- Each way out of `follow` before a second request is a reason not to save, except that without a
  -- location the first response is the one that is saved.
  unfold followAndSave follow
  cases header : response.header? "location" with
  | none => exact save_ends last
  | some value =>
    cases readable : headerText? value with
    | none =>
      simp only [readable]
      exact stopped_ends rfl rfl (.unreadableLocation last header readable)
    | some location =>
      cases parsed : Http.Uri.parse location with
      | error fault =>
        simp only [readable, redirected, parsed]
        exact stopped_ends rfl rfl (.noLocation last header readable parsed)
      | ok reference =>
        simp only [readable, redirected, parsed]
        have points : client.pointedTo? (.downloadArtifact artifact path) response =
            some (client.request .get reference none) := by
          simp [pointedTo?, header, readable, redirected, parsed, Except.toOption]
        refine exchangeThen_ends ?_ ?_
        · intro rest fault after other
          exact .lost made (run_of_two_exchanges run points other)
        · intro rest response' middle other
          obtain ⟨asked', last'⟩ := other.getLast?_of_ok
          have ends : (deliveries ++ rest).getLast? = some (asked', response') := by
            rw [List.getLast?_append, last', Option.some_or]
          exact save_ends ends

theorem unsaved_of_requestOf_error {failure : Failure} {files : Files}
    (refused : client.requestOf (.downloadArtifact artifact path) = .error failure) :
    Unsaved client (.downloadArtifact artifact path) path network files [] failure := by
  unfold requestOf at refused
  split at refused
  · rename_i missing
    cases refused
    exact .noToken (by simpa [Call.needsToken] using missing) rfl
  · split at refused
    · rename_i fault parsed
      cases refused
      exact .noRoute parsed rfl
    · cases refused

/-- For every client, artifact and path, whatever the files and the answers are: when the call
succeeds, the file at the path has exactly the body of the last response, a success, and nothing else
has changed; when it fails, all files are as before, and there is a reason. -/
theorem perform_downloaded (client : Client) (artifact : Nat) (path : String) (session : Session) :
    ∃ sent, (client.perform (.downloadArtifact artifact path) session).2.traffic.arrived =
        session.traffic.arrived ++ sent ∧
      Downloaded client (.downloadArtifact artifact path) path session.traffic.network
        session.files (session.traffic.network.answered sent)
        (client.perform (.downloadArtifact artifact path) session) := by
  have ends : EndsDownload client (.downloadArtifact artifact path) path session.traffic.network []
      session (client.perform (.downloadArtifact artifact path) session) := by
    cases made : client.requestOf (.downloadArtifact artifact path) with
    | error failure =>
      rw [perform_of_error made]
      exact stopped_ends rfl rfl (unsaved_of_requestOf_error made)
    | ok request =>
      have whole : client.perform (.downloadArtifact artifact path) session =
          exchangeThen (.downloadArtifact artifact path) request
            (client.followAndSave (.downloadArtifact artifact path) path) session := by
        simp only [perform, made]
        rfl
      rw [whole]
      refine exchangeThen_ends (fun run => ?_) fun run => followAndSave_ends made run
      exact .lost made (run_of_exchange run (by simp))
  exact ends

end WorkflowKit.GitHub.Client
