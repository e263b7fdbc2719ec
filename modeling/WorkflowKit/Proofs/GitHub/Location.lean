import WorkflowKit.Proofs.GitHub.Download

namespace WorkflowKit.GitHub

/-- No response reports an address that is none, or a request that is lost. -/
theorem reportOf_ne (response : Http.Response) :
    reportOf response ≠ .badAddress ∧ ∀ fault, reportOf response ≠ .transport fault := by
  unfold reportOf
  split
  · exact ⟨nofun, nofun⟩
  · exact ⟨nofun, nofun⟩

namespace Client

/-- What comes of following a location after some requests: another one arrives, or there is a failure
that no response and no file accounts for. -/
inductive Followed (call : Call) (arrived : List Http.Request) :
    Except Failure Http.Response × Session → Prop
  | answered {response : Http.Response} {after : Session} :
      arrived.length < after.traffic.arrived.length → Followed call arrived (.ok response, after)
  | failed {failure : Failure} {after : Session} :
      (∀ response, failure ≠ .gitHub call.name (reportOf response)) →
      (∀ path fault, failure ≠ .file path fault) → Followed call arrived (.error failure, after)

variable {client : Client} {call : Call} {artifact : Nat} {path : String} {session : Session}
  {request : Http.Request} {response : Http.Response} {value : Octets}

theorem Followed.of_fault {arrived : List Http.Request} {fault : Fault} {after : Session}
    (unreported : ∀ response, reportOf response ≠ fault) :
    Followed call arrived (.error (.gitHub call.name fault), after) := by
  refine .failed (fun response same => ?_) fun _ _ same => by cases same
  injection same with _ reported
  exact unreported response reported.symm

/-- Without a location the response is the last one, whatever its status is. -/
theorem follow_of_no_location (absent : response.header? "location" = none) (session : Session) :
    client.follow call response session = (.ok response, session) := by
  simp only [follow, absent]

/-- There is no response without a request that arrives. -/
theorem followed_of_exchange (session : Session) :
    Followed call session.traffic.arrived (session.exchange call request) := by
  obtain ⟨sent, after, _, arrived, ⟨fault, exchanged, _⟩ | ⟨response, exchanged, run⟩⟩ :=
    exchange_cases call session request
  · rw [exchanged]
    exact .of_fault fun response => (reportOf_ne response).2 fault
  · rw [exchanged]
    refine .answered ?_
    obtain ⟨last, ends⟩ := run.getLast?_of_ok
    have some : sent ≠ [] := by
      rintro rfl
      cases ends
    have more := List.length_pos_iff.mpr some
    rw [arrived, List.length_append, List.length_map]
    omega

/-- With a location the response is left for the one at the place to which it points. -/
theorem follow_of_location (header : response.header? "location" = some value) (session : Session) :
    Followed call session.traffic.arrived (client.follow call response session) := by
  unfold follow
  cases readable : headerText? value with
  | none =>
    simp only [header, readable]
    exact .failed (fun _ same => by cases same) fun _ _ same => by cases same
  | some location =>
    cases parsed : Http.Uri.parse location with
    | error fault =>
      simp only [header, readable, redirected, parsed]
      exact .of_fault fun response => (reportOf_ne response).1
    | ok reference =>
      simp only [header, readable, redirected, parsed]
      exact followed_of_exchange (session.log .debug call _)

/-- Where a location leads is settled without the status and the body that come with it. -/
theorem follow_of_headers {other : Http.Response} (header : response.header? "location" = some value)
    (same : other.headers = response.headers) (session : Session) :
    client.follow call other session = client.follow call response session := by
  have header' : other.header? "location" = some value := by
    rw [← header]
    simp only [Http.Response.header?, same]
  simp only [follow, header, header']

theorem EndedBy.arrived {done : Except Failure Outcome × Session}
    (ended : EndedBy call path response session done) :
    done.2.traffic.arrived = session.traffic.arrived := by
  cases ended with
  | saved _ arrived => exact arrived
  | unwritten _ _ arrived => exact arrived
  | refused _ arrived => exact arrived

/-- A response that was followed does not end the download. -/
theorem not_endedBy_of_followed {next : Http.Response}
    (followed : Followed call session.traffic.arrived (client.follow call response session)) :
    ¬ EndedBy call path next session (client.followAndSave call path response session) := by
  intro ended
  unfold followAndSave at ended
  generalize client.follow call response session = result at followed ended
  cases followed with
  | answered longer =>
    have same := ended.arrived
    rw [save_arrived] at same
    rw [same] at longer
    exact Nat.lt_irrefl _ longer
  | failed unreported unsaved =>
    cases ended with
    | unwritten => exact unsaved _ _ rfl
    | refused => exact unreported _ rfl

/-- What is left of a download after its first exchange is to follow the response and to save. -/
theorem perform_of_exchange {traffic : Http.Traffic}
    (made : client.requestOf (.downloadArtifact artifact path) = .ok request)
    (exchanged : session.traffic.exchange request = (.ok response, traffic)) :
    client.perform (.downloadArtifact artifact path) session =
      client.followAndSave (.downloadArtifact artifact path) path response
        { session with traffic } := by
  simp only [perform, made, Session.exchange, exchanged]
  rfl

/-- The response at the end of the first exchange of a download ends it exactly if it has no location,
and then its status tells whether the body is saved. With a location neither status nor body counts for
anything, be it a redirect, a success or a failure of the server. -/
theorem perform_endedBy_iff (client : Client) (artifact : Nat) (path : String) (session : Session)
    (request : Http.Request) (response : Http.Response) (traffic : Http.Traffic)
    (made : client.requestOf (.downloadArtifact artifact path) = .ok request)
    (exchanged : session.traffic.exchange request = (.ok response, traffic)) :
    (EndedBy (.downloadArtifact artifact path) path response { session with traffic }
        (client.perform (.downloadArtifact artifact path) session) ↔
      response.header? "location" = none) ∧
    (response.header? "location" ≠ none → ∀ other : Http.Response,
      other.headers = response.headers →
        client.perform (.downloadArtifact artifact path) session =
          client.followAndSave (.downloadArtifact artifact path) path other
            { session with traffic }) := by
  rw [perform_of_exchange made exchanged]
  cases header : response.header? "location" with
  | none =>
    refine ⟨iff_of_true ?_ rfl, fun present => absurd rfl present⟩
    simp only [followAndSave, follow_of_no_location header]
    exact save_endedBy response _
  -- With a location the body of this response is out of reach, whatever comes of the second
  -- request.
  | some value =>
    refine ⟨iff_of_false ?_ nofun, fun _ other same => ?_⟩
    · exact not_endedBy_of_followed (follow_of_location header _)
    · simp only [followAndSave, follow_of_headers header same]

/-- An archive without a location is saved after one request. -/
theorem downloadArtifact_ends :
    let response : Http.Response := ⟨200, [], Octets.ofText "PK"⟩
    let session := Session.start ⟨["api.github.com"], [response]⟩ .empty
    let done := (usual (some "tok")).perform (.downloadArtifact 1 "a.zip") session
    done.2.traffic.arrived.length = 1 ∧ ∃ traffic,
      EndedBy (.downloadArtifact 1 "a.zip") "a.zip" response { session with traffic } done := by
  intro response session done
  refine ⟨by decide +kernel, _, (perform_endedBy_iff (usual (some "tok")) 1 "a.zip" session
    ((usual (some "tok")).request .get
      ⟨none, none, "/repos/firebase/firebase-cpp-sdk/actions/artifacts/1/zip", none⟩ none) response _
    (by rfl) (by rfl)).1.mpr (by decide +kernel)⟩

/-- The server says that an artifact is gone, and another page is saved for it. -/
theorem downloadArtifact_saves_another_page :
    (make ⟨usualAddress, usualRepository, some "tok"⟩).toOption.map (fun client =>
      let network : Http.Network := ⟨["api.github.com"],
        [⟨410, [("location", Octets.ofText "https://api.github.com/elsewhere")],
          Octets.ofText "\x7b\"message\": \"Gone\"\x7d"⟩,
         ⟨200, [], Octets.ofText "other"⟩]⟩
      let (result, session) :=
        client.perform (.downloadArtifact 1 "a.zip") (.start network .empty)
      (result.isOk, (network.answered session.traffic.arrived).map fun delivery =>
        delivery.2.status, (session.files.read "a.zip").toOption)) =
      some (true, [410, 200], some (Octets.ofText "other")) := by
  decide +kernel

end Client

end WorkflowKit.GitHub
