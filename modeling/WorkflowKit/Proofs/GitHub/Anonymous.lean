import WorkflowKit.Proofs.GitHub.Confinement

namespace WorkflowKit.GitHub.Client

variable {client : Client} {call : Call}

/-- Holds of a request that asks for something and neither brings nor tells anything. -/
def OnlyReads (request : Http.Request) : Prop :=
  request.method = .get ∧ request.body = [] ∧ request.contentType = none ∧
    request.authorization = none

theorem onlyReads_request (anonymous : client.token = none) (reference : Http.Uri) :
    OnlyReads (client.request .get reference none) := by
  refine ⟨rfl, rfl, rfl, ?_⟩
  simp [request, authorization, anonymous]

/-- Following a redirect adds neither a token nor a body. -/
theorem onlyReads_of_next? {request again : Http.Request} {response : Http.Response}
    (reads : OnlyReads request) (follows : Http.Traffic.next? request response = some again) :
    OnlyReads again := by
  obtain ⟨get, empty, untyped, unauthorized⟩ := reads
  obtain ⟨bare, uri, redirects, rfl⟩ := Http.Traffic.next?_cases follows
  rcases Http.Traffic.redirected_cases redirects with ⟨rfl, _⟩ | rfl
  · exact ⟨get, empty, untyped, by simp only [unauthorized, ite_self]⟩
  · exact ⟨rfl, rfl, rfl, by simp only [unauthorized, ite_self]⟩

/-- A call that needs no token asks for something without bringing anything. -/
theorem reads_of_not_needsToken (free : call.needsToken = false) :
    call.method = .get ∧ call.content? = none ∧ call.isDownload = false := by
  cases call with
  | searchIssues => exact ⟨rfl, rfl, rfl⟩
  | listComments => exact ⟨rfl, rfl, rfl⟩
  | _ => cases free

/-- Without a token the calls that need none send requests that only read. -/
theorem perform_onlyReads (anonymous : client.token = none) (free : call.needsToken = false)
    (session : Session) :
    ∃ sent, (client.perform call session).2.traffic.arrived = session.traffic.arrived ++ sent ∧
      ∀ request ∈ sent, OnlyReads request := by
  obtain ⟨get, empty, _⟩ := reads_of_not_needsToken free
  refine perform_forall_arrived OnlyReads ?_ onlyReads_of_next? ?_ session
  · intro request made
    obtain ⟨reference, rfl⟩ := request_of_requestOf made
    rw [get, empty]
    exact onlyReads_request anonymous reference
  · intro request response points
    obtain ⟨reference, rfl⟩ := request_of_pointedTo? points
    exact onlyReads_request anonymous reference

/-- Without a token the calls that need one are refused, and the session is as it was. -/
theorem perform_refused (anonymous : client.token = none) (bound : call.needsToken = true)
    (session : Session) :
    client.perform call session = (.error (.noToken call.name), session) := by
  refine perform_of_error ?_ session
  simp [requestOf, anonymous, bound]

theorem performAll_calls (client : Client) (calls : List (Call × Http.Network)) (files : Files) :
    (client.performAll calls files).map (·.call) = calls.map (·.1) := by
  induction calls generalizing files with
  | nil => rfl
  | cons next calls ih =>
    obtain ⟨call, network⟩ := next
    simp only [performAll, List.map_cons, ih]
    rfl

/-- Whatever calls are made without a token and whatever the servers answer: only searches and lists
of comments send requests, and these read without a body or an authorization. Every other call is
refused by its name with no request, no event and no change of a file. -/
theorem performAll_of_no_token (anonymous : client.token = none)
    (calls : List (Call × Http.Network)) (files : Files) :
    (client.performAll calls files).map (·.call) = calls.map (·.1) ∧
      ∀ step ∈ client.performAll calls files, step.files = files ∧
        match step.call with
        | .searchIssues _ | .listComments _ =>
          ∀ request ∈ step.requests, request.method = .get ∧ request.body = [] ∧
            request.contentType = none ∧ request.authorization = none
        | call => step.result = .error (.noToken call.name) ∧ step.requests = [] ∧
            step.events = [] := by
  refine ⟨performAll_calls client calls files, ?_⟩
  refine performAll_forall (· = files) _ ?_ calls rfl
  intro call network files' same
  subst same
  -- A call that needs a token ends before its request is made, so that the session stays as it was.
  cases bound : call.needsToken with
  | true =>
    have refused : client.step call network files' =
        ⟨call, .error (.noToken call.name), [], [], files'⟩ := by
      simp only [step, perform_refused anonymous bound]
      rfl
    rw [refused]
    refine ⟨⟨rfl, ?_⟩, rfl⟩
    cases call with
    | searchIssues => cases bound
    | listComments => cases bound
    | _ => exact ⟨rfl, rfl, rfl⟩
  | false =>
    obtain ⟨_, _, only⟩ := reads_of_not_needsToken bound
    have kept : (client.step call network files').files = files' :=
      perform_files only (.start network files')
    obtain ⟨sent, arrived, reads⟩ := perform_onlyReads anonymous bound (.start network files')
    have all : (client.step call network files').requests = sent := arrived
    rw [← all] at reads
    refine ⟨⟨kept, ?_⟩, kept⟩
    cases call with
    | searchIssues => exact reads
    | listComments => exact reads
    | _ => cases bound

theorem performAll_of_no_token_usual :
    let network : Http.Network := ⟨["api.github.com"], [⟨200, [], Octets.ofText "[]"⟩]⟩
    let steps := (usual none).performAll [(.listComments 1, network), (.closeIssue 1, network)] .empty
    steps.map (fun step => (step.requests.length, step.events.length)) = [(1, 1), (0, 0)] ∧
      ∀ step ∈ steps, step.files = .empty := by
  intro network steps
  obtain ⟨_, each⟩ := @performAll_of_no_token (usual none) rfl
    [(.listComments 1, network), (.closeIssue 1, network)] .empty
  exact ⟨by decide +kernel, fun step member => (each step member).1⟩

end WorkflowKit.GitHub.Client
