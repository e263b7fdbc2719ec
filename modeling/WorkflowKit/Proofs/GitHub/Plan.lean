import WorkflowKit.GitHub.Session
import WorkflowKit.Proofs.Http.Exchange

namespace WorkflowKit.GitHub

/-- Holds of the call that saves an artifact. -/
def Call.isDownload : Call → Bool
  | downloadArtifact .. => true
  | _ => false

/-- A request of a call on its way, and whether the call goes where its response points. -/
structure Stage extends Http.Leg where
  onward : Bool

/-- The first request of a call, when it has not been sent yet. -/
def Stage.first (call : Call) (request : Http.Request) : Stage :=
  ⟨.first request, call.isDownload⟩

@[simp]
theorem Stage.first_request (call : Call) (request : Http.Request) :
    (first call request).request = request := rfl

namespace Client

theorem make_usual {token : Option String} (fits : (token.getD "").toList.all isHeaderChar) :
    make ⟨usualAddress, usualRepository, token⟩ = .ok (usual token) := by
  have parsed : Http.Uri.parse usualAddress =
      .ok ⟨some "https", some "api.github.com", "", none⟩ := by rfl
  have address : Text.withoutTrailing '/' usualAddress = usualAddress := by decide +kernel
  simp only [make, parsed, fits, address, usual, if_true]

/-- The request for the place to which a response points, if it points to one. -/
def pointedTo? (client : Client) (call : Call) (response : Http.Response) : Option Http.Request := do
  let value ← response.header? "location"
  let location ← headerText? value
  (client.redirected call location).toOption

/-- The plan that a call follows. -/
def plan (client : Client) (call : Call) : Http.Plan Stage where
  request stage := stage.request
  next? stage response :=
    match stage.toLeg.next? response with
    | some again => some ⟨again, stage.onward⟩
    | none =>
      if stage.onward then
        (client.pointedTo? call response).map fun request => ⟨.first request, false⟩
      else none

variable {client : Client} {call : Call}

@[simp]
theorem plan_request (stage : Stage) : (client.plan call).request stage = stage.request := rfl

theorem request_of_requestOf {request : Http.Request} (made : client.requestOf call = .ok request) :
    ∃ reference, request = client.request call.method reference call.content? := by
  unfold requestOf at made
  split at made
  · cases made
  · split at made
    · cases made
    · cases made
      exact ⟨_, rfl⟩

theorem request_of_pointedTo? {request : Http.Request} {response : Http.Response}
    (points : client.pointedTo? call response = some request) :
    ∃ reference, request = client.request .get reference none := by
  obtain ⟨value, _, others⟩ := Option.bind_eq_some_iff.mp points
  obtain ⟨location, _, others⟩ := Option.bind_eq_some_iff.mp others
  unfold redirected at others
  cases parsed : Http.Uri.parse location with
  | error fault => simp [parsed, Except.toOption] at others
  | ok reference =>
    simp only [parsed, Except.toOption, Option.some.injEq] at others
    exact ⟨reference, others.symm⟩

/-- What follows a response of a call is the same request again, or it follows a redirect, or it is the
one that the response points to. -/
theorem plan_next?_cases {stage again : Stage} {response : Http.Response}
    (follows : (client.plan call).next? stage response = some again) :
    again.request = stage.request ∨
      Http.Traffic.next? stage.request response = some again.request ∨
      client.pointedTo? call response = some again.request := by
  simp only [plan] at follows
  cases goes : stage.toLeg.next? response with
  | some leg =>
    simp only [goes, Option.some.injEq] at follows
    subst follows
    rcases Http.Leg.next?_cases goes with ⟨_, _, rfl⟩ | ⟨request, _, _, redirects, rfl⟩
    · exact Or.inl rfl
    · exact Or.inr (Or.inl redirects)
  | none =>
    simp only [goes] at follows
    split at follows
    · obtain ⟨request, points, rfl⟩ := Option.map_eq_some_iff.mp follows
      exact Or.inr (Or.inr points)
    · cases follows

/-- An exchange is all of a call if the call does not go on from the last response. -/
theorem run_of_exchange {leg : Http.Leg} {network after : Http.Network}
    {sent : List (Http.Request × Http.Response)} {result : Except Http.TransportFault Http.Response}
    (run : Http.Leg.plan.Run leg network sent result after) {onward : Bool}
    (ends : ∀ response, result = .ok response → onward → client.pointedTo? call response = none) :
    (client.plan call).Run ⟨leg, onward⟩ network sent result after := by
  induction run with
  | lost unreached => exact .lost unreached
  | last reached stop =>
    refine .last reached ?_
    have stop' := stop
    simp only [Http.Leg.plan] at stop'
    cases onward with
    | false => simp [plan, stop']
    | true => simp [plan, stop', ends _ rfl rfl]
  | next reached follows _ ih =>
    refine .next reached ?_ (ih ends)
    simp only [Http.Leg.plan] at follows
    simp [plan, follows]

/-- Two exchanges are all of a call if the first response points to the second request. -/
theorem run_of_two_exchanges {leg : Http.Leg} {network middle after : Http.Network}
    {sent rest : List (Http.Request × Http.Response)} {response : Http.Response}
    {request : Http.Request} {result : Except Http.TransportFault Http.Response}
    (run : Http.Leg.plan.Run leg network sent (.ok response) middle)
    (points : client.pointedTo? call response = some request)
    (other : Http.Leg.plan.Run (.first request) middle rest result after) :
    (client.plan call).Run ⟨leg, true⟩ network (sent ++ rest) result after := by
  -- The induction is on the first exchange, of which only the end knows the response.
  generalize ended : Except.ok response = result' at run
  induction run with
  | lost => cases ended
  | last reached stop =>
    cases ended
    have alone : (client.plan call).Run ⟨.first request, false⟩ _ rest result after :=
      run_of_exchange other (by simp)
    refine .next reached ?_ alone
    simp only [Http.Leg.plan] at stop
    simp [plan, stop, points]
  | next reached follows _ ih =>
    refine .next reached ?_ (ih other ended)
    simp only [Http.Leg.plan] at follows
    simp [plan, follows]

theorem finish_arrived (response : Http.Response) (session : Session) :
    (client.finish call response session).2.traffic.arrived = session.traffic.arrived := by
  unfold finish
  split <;> rfl

theorem finish_files (response : Http.Response) (session : Session) :
    (client.finish call response session).2.files = session.files := by
  unfold finish
  split <;> rfl

theorem save_arrived (path : String) (response : Http.Response) (session : Session) :
    (client.save call path response session).2.traffic.arrived = session.traffic.arrived := by
  unfold save
  split
  · rfl
  · split <;> rfl

/-- An exchange of a call is lost or gives a response, and sends requests on the way. No file changes. -/
theorem exchange_cases (call : Call) (session : Session) (request : Http.Request) :
    ∃ sent after, after.files = session.files ∧
      after.traffic.arrived = session.traffic.arrived ++ sent.map (·.1) ∧
      ((∃ fault,
          session.exchange call request = (.error (.gitHub call.name (.transport fault)), after) ∧
          Http.Leg.plan.Run (.first request) session.traffic.network sent (.error fault)
            after.traffic.network) ∨
        ∃ response, session.exchange call request = (.ok response, after) ∧
          Http.Leg.plan.Run (.first request) session.traffic.network sent (.ok response)
            after.traffic.network) := by
  obtain ⟨sent, run, arrived, _⟩ := Http.Traffic.exchange_run request session.traffic
  rcases exchanged : session.traffic.exchange request with ⟨fault | response, traffic⟩
  all_goals
    rw [exchanged] at run arrived
    refine ⟨sent, { session with traffic }, rfl, arrived, ?_⟩
    simp only [Session.exchange, exchanged]
  · exact Or.inl ⟨fault, rfl, run⟩
  · exact Or.inr ⟨response, rfl, run⟩

/-- A response that points to no place is followed by no request. -/
theorem follow_of_none {response : Http.Response}
    (nowhere : client.pointedTo? call response = none) (session : Session) :
    (client.follow call response session).2.traffic.arrived = session.traffic.arrived := by
  unfold follow
  cases header : response.header? "location" with
  | none => rfl
  | some value =>
    cases readable : headerText? value with
    | none => simp only [readable]
    | some location =>
      cases made : client.redirected call location with
      | error failure =>
        simp only [readable, made]
        rfl
      | ok request => simp [pointedTo?, header, readable, made, Except.toOption] at nowhere

/-- A response that points to a place is followed by one exchange. -/
theorem follow_of_some {response : Http.Response} {request : Http.Request}
    (points : client.pointedTo? call response = some request) (session : Session) :
    ∃ location : String, client.follow call response session =
      (session.log .debug call s!"following redirect to {location}").exchange call request := by
  obtain ⟨value, header, others⟩ := Option.bind_eq_some_iff.mp points
  obtain ⟨location, readable, others⟩ := Option.bind_eq_some_iff.mp others
  refine ⟨location, ?_⟩
  cases made : client.redirected call location with
  | error failure => simp [made, Except.toOption] at others
  | ok request' =>
    simp only [made, Except.toOption, Option.some.injEq] at others
    subst others
    simp only [follow, header, readable, made]

theorem perform_of_error {failure : Failure} (refused : client.requestOf call = .error failure)
    (session : Session) : client.perform call session = (.error failure, session) := by
  rw [perform, refused]

/-- A call that saves nothing is one exchange, of which the response is taken as the answer. -/
theorem perform_of_not_isDownload (only : call.isDownload = false) {request : Http.Request}
    (made : client.requestOf call = .ok request) (session : Session) :
    client.perform call session =
      match session.exchange call request with
      | (.error failure, after) => (.error failure, after)
      | (.ok response, after) => client.finish call response after := by
  simp only [perform, made]
  cases call with
  | downloadArtifact => cases only
  | _ => rfl

/-- Only an artifact is saved to a file. -/
theorem perform_files (only : call.isDownload = false) (session : Session) :
    (client.perform call session).2.files = session.files := by
  cases made : client.requestOf call with
  | error failure => rw [perform_of_error made]
  | ok request =>
    obtain ⟨_, middle, files, _, ⟨_, exchanged, _⟩ | ⟨response, exchanged, _⟩⟩ :=
      exchange_cases call session request
    · simp only [perform_of_not_isDownload only made, exchanged, files]
    · simp only [perform_of_not_isDownload only made, exchanged, finish_files, files]

/-- After the first exchange only that for an artifact may send another request. -/
theorem perform_arrived {request : Http.Request} (made : client.requestOf call = .ok request)
    (session : Session) :
    (client.perform call session).2.traffic.arrived =
      match session.exchange call request with
      | (.ok response, middle) =>
        if call.isDownload then (client.follow call response middle).2.traffic.arrived
        else middle.traffic.arrived
      | (.error _, middle) => middle.traffic.arrived := by
  simp only [perform, made]
  rcases session.exchange call request with ⟨_ | response, middle⟩
  · rfl
  · cases call with
    | downloadArtifact artifact path =>
      simp only [Call.isDownload, if_true]
      rcases client.follow (.downloadArtifact artifact path) response middle with ⟨_ | _, _⟩
      · rfl
      · exact save_arrived _ _ _
    | _ => exact finish_arrived _ _

/-- The requests of a call that arrive are those of a run of its plan. -/
theorem perform_run {request : Http.Request} (made : client.requestOf call = .ok request)
    (session : Session) :
    ∃ sent result after,
      (client.plan call).Run (.first call request) session.traffic.network sent result after ∧
      (client.perform call session).2.traffic.arrived =
        session.traffic.arrived ++ sent.map (·.1) := by
  rw [perform_arrived made]
  obtain ⟨sent, middle, _, arrived, ⟨fault, exchanged, run⟩ | ⟨response, exchanged, run⟩⟩ :=
    exchange_cases call session request
  · simp only [exchanged]
    exact ⟨sent, _, _, run_of_exchange run (by simp), arrived⟩
  · simp only [exchanged]
    -- Only a download looks at the location of the response, and has a second exchange for it.
    by_cases download : call.isDownload
    · cases points : client.pointedTo? call response with
      | none =>
        refine ⟨sent, _, _, run_of_exchange run ?_, ?_⟩
        · rintro _ ⟨⟩ _
          exact points
        · rw [if_pos download, follow_of_none points, arrived]
      | some request' =>
        obtain ⟨location, followed⟩ := follow_of_some points middle
        obtain ⟨rest, run', arrived', _⟩ := Http.Traffic.exchange_run request'
          (middle.log .debug call s!"following redirect to {location}").traffic
        have whole := run_of_two_exchanges run points run'
        rw [← download] at whole
        refine ⟨sent ++ rest, _, _, whole, ?_⟩
        rw [if_pos download, followed, List.map_append, ← List.append_assoc, ← arrived]
        exact arrived'
    · refine ⟨sent, _, _, run_of_exchange run (by simp [download]), ?_⟩
      rw [if_neg download, arrived]

/-- What holds of the first request of a call, and of those that follow a redirect or a response that
points elsewhere, holds of all requests that arrive. -/
theorem perform_forall_arrived (Holds : Http.Request → Prop)
    (made : ∀ {request}, client.requestOf call = .ok request → Holds request)
    (redirects : ∀ {request response again}, Holds request →
      Http.Traffic.next? request response = some again → Holds again)
    (points : ∀ {request response}, client.pointedTo? call response = some request → Holds request)
    (session : Session) :
    ∃ sent, (client.perform call session).2.traffic.arrived = session.traffic.arrived ++ sent ∧
      ∀ request ∈ sent, Holds request := by
  cases asked : client.requestOf call with
  | error failure => exact ⟨[], by simp [perform_of_error asked]⟩
  | ok request =>
    obtain ⟨sent, result, after, run, arrived⟩ := perform_run asked session
    refine ⟨sent.map (·.1), arrived, ?_⟩
    have step : ∀ {stage response again}, Holds stage.request →
        (client.plan call).next? stage response = some again → Holds again.request := by
      intro stage response again holds follows
      rcases plan_next?_cases follows with same | follows | follows
      · rw [same]
        exact holds
      · exact redirects holds follows
      · exact points follows
    rw [List.forall_mem_map]
    exact run.forall_sent Holds step (made asked)

/-- What each call keeps of the files, calls one after another keep, and what holds of each step that
starts with such files holds of all. -/
theorem performAll_forall (Kept : Files → Prop) (Holds : Step → Prop)
    (each : ∀ call network files, Kept files →
      Holds (client.step call network files) ∧ Kept (client.step call network files).files)
    (calls : List (Call × Http.Network)) {files : Files} (start : Kept files) :
    ∀ step ∈ client.performAll calls files, Holds step := by
  induction calls generalizing files with
  | nil => exact List.forall_mem_nil _
  | cons next calls ih =>
    obtain ⟨call, network⟩ := next
    obtain ⟨holds, kept⟩ := each call network files start
    exact List.forall_mem_cons.mpr ⟨holds, ih kept⟩

end Client

end WorkflowKit.GitHub
