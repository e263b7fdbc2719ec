import WorkflowKit.Proofs.GitHub.Plan

namespace WorkflowKit.Http

/-- A request with another text in the place of its authorization, if it has one. -/
def Request.authorizedBy (text : String) (request : Request) : Request :=
  { request with authorization := request.authorization.map fun _ => text }

namespace Traffic

/-- Traffic in which all authorized requests were authorized by another text. -/
def authorizedBy (text : String) (traffic : Traffic) : Traffic :=
  { traffic with arrived := traffic.arrived.map (·.authorizedBy text) }

variable (text : String) (request : Request) (traffic : Traffic)

theorem sendOnce_authorizedBy :
    (traffic.authorizedBy text).sendOnce (request.authorizedBy text) =
      Prod.map id (authorizedBy text) (traffic.sendOnce request) := by
  by_cases reaches : traffic.network.Reaches request
  · have reaches' : (traffic.authorizedBy text).network.Reaches (request.authorizedBy text) := reaches
    rw [sendOnce_of_reaches reaches, sendOnce_of_reaches reaches']
    simp [authorizedBy, delivered]
  · have lost : ¬ (traffic.authorizedBy text).network.Reaches (request.authorizedBy text) := reaches
    rw [sendOnce_of_not_reaches reaches, sendOnce_of_not_reaches lost]
    rfl

theorem sendAgain_authorizedBy (times : Nat) :
    (traffic.authorizedBy text).sendAgain (request.authorizedBy text) times =
      Prod.map id (authorizedBy text) (traffic.sendAgain request times) := by
  induction times generalizing traffic with
  | zero => exact sendOnce_authorizedBy text request traffic
  | succ times ih =>
    simp only [sendAgain, sendOnce_authorizedBy]
    rcases traffic.sendOnce request with ⟨_ | response, after⟩
    · rfl
    · simp only [Prod.map_apply, id_eq, ih]
      split <;> rfl

theorem send_authorizedBy :
    (traffic.authorizedBy text).send (request.authorizedBy text) =
      Prod.map id (authorizedBy text) (traffic.send request) := by
  simp only [send_eq, sendAgain_authorizedBy]
  rfl

theorem redirected_authorizedBy (status : Nat) :
    redirected (request.authorizedBy text) status =
      (redirected request status).map (·.authorizedBy text) := by
  unfold redirected
  split_ifs <;> simp_all [Request.authorizedBy]

theorem next?_authorizedBy (response : Response) :
    next? (request.authorizedBy text) response =
      (next? request response).map (·.authorizedBy text) := by
  unfold next?
  rw [redirected_authorizedBy]
  cases redirected request response.status with
  | none => rfl
  | some bare =>
    cases response.header? "location" with
    | none => rfl
    | some value =>
      simp only [Option.map_some, Option.bind_eq_bind, Option.bind_some]
      cases value.text? with
      | none => rfl
      | some reference =>
        have place : (request.authorizedBy text).uri = request.uri := rfl
        simp only [Option.bind_some, place]
        cases request.uri.resolve reference with
        | none => rfl
        | some uri =>
          -- Whether an authorization is kept depends on the places alone.
          by_cases same : request.uri.sameOrigin uri <;> simp [Request.authorizedBy, same]

theorem followed_authorizedBy (times : Nat) :
    followed times (request.authorizedBy text) (traffic.authorizedBy text) =
      Prod.map id (authorizedBy text) (followed times request traffic) := by
  induction times generalizing request traffic with
  | zero => exact send_authorizedBy text request traffic
  | succ times ih =>
    simp only [followed, send_authorizedBy]
    rcases traffic.send request with ⟨_ | response, after⟩
    · rfl
    · simp only [Prod.map_apply, id_eq, next?_authorizedBy]
      cases next? request response with
      | none => rfl
      | some again => exact ih again after

/-- What authorizes a request makes no difference to its exchange. -/
theorem exchange_authorizedBy :
    (traffic.authorizedBy text).exchange (request.authorizedBy text) =
      Prod.map id (authorizedBy text) (traffic.exchange request) :=
  followed_authorizedBy text request traffic redirectLimit

end Traffic

end WorkflowKit.Http

namespace WorkflowKit.GitHub

def Session.authorizedBy (text : String) (session : Session) : Session :=
  { session with traffic := session.traffic.authorizedBy text }

def Step.authorizedBy (text : String) (step : Step) : Step :=
  { step with requests := step.requests.map (·.authorizedBy text) }

namespace Client

variable {client : Client} {call : Call} (text : String)

theorem exchange_authorizedBy (session : Session) (request : Http.Request) :
    (session.authorizedBy text).exchange call (request.authorizedBy text) =
      Prod.map id (Session.authorizedBy text) (session.exchange call request) := by
  have exchanged := Http.Traffic.exchange_authorizedBy text request session.traffic
  simp only [Session.exchange, Session.authorizedBy, exchanged]
  rfl

theorem finish_authorizedBy (response : Http.Response) (session : Session) :
    client.finish call response (session.authorizedBy text) =
      Prod.map id (Session.authorizedBy text) (client.finish call response session) := by
  unfold finish
  cases call.answered response with
  | error fault => rfl
  | ok answer => rfl

theorem save_authorizedBy (path : String) (response : Http.Response) (session : Session) :
    client.save call path response (session.authorizedBy text) =
      Prod.map id (Session.authorizedBy text) (client.save call path response session) := by
  unfold save
  have files : (session.authorizedBy text).files = session.files := rfl
  cases call.answered response with
  | error fault => rfl
  | ok answer =>
    simp only [files]
    cases session.files.write path response.body <;> rfl

/-- The same client with another token. -/
def withToken (client : Client) (token : String) : Client := { client with token := some token }

variable {token : String}

theorem authorization_withToken (known : client.token.isSome) (uri : Http.Uri) :
    (client.withToken token).authorization uri =
      (client.authorization uri).map fun _ => "Bearer " ++ token := by
  obtain ⟨old, known⟩ := Option.isSome_iff_exists.mp known
  by_cases own : uri.authority = client.base.authority <;>
    simp [authorization, withToken, known, own]

theorem request_withToken (known : client.token.isSome) (method : Http.Method)
    (reference : Http.Uri) (content : Option Json) :
    (client.withToken token).request method reference content =
      (client.request method reference content).authorizedBy ("Bearer " ++ token) := by
  have place : (client.withToken token).place reference = client.place reference := rfl
  simp only [request, place, authorization_withToken known, Http.Request.authorizedBy]

theorem requestOf_withToken (known : client.token.isSome) :
    (client.withToken token).requestOf call =
      (client.requestOf call).map (·.authorizedBy ("Bearer " ++ token)) := by
  obtain ⟨old, known'⟩ := Option.isSome_iff_exists.mp known
  have repository : (client.withToken token).repository = client.repository := rfl
  have token' : (client.withToken token).token.isNone = client.token.isNone := by
    simp [withToken, known']
  simp only [requestOf, token', repository, request_withToken known]
  split
  · rfl
  · split <;> rfl

theorem redirected_withToken (known : client.token.isSome) (location : String) :
    (client.withToken token).redirected call location =
      (client.redirected call location).map (·.authorizedBy ("Bearer " ++ token)) := by
  unfold redirected
  cases Http.Uri.parse location with
  | error fault => rfl
  | ok reference => simp [request_withToken known, Except.map]

/-- Another token makes no difference to where a redirect leads. -/
theorem follow_withToken (known : client.token.isSome) (response : Http.Response)
    (session : Session) :
    (client.withToken token).follow call response (session.authorizedBy ("Bearer " ++ token)) =
      Prod.map id (Session.authorizedBy ("Bearer " ++ token))
        (client.follow call response session) := by
  unfold follow
  cases response.header? "location" with
  | none => rfl
  | some value =>
    cases readable : headerText? value with
    | none =>
      simp only [readable]
      rfl
    | some location =>
      -- The location that is logged is that of the response, which has no token.
      simp only [readable, redirected_withToken known]
      cases client.redirected call location with
      | error failure => rfl
      | ok request =>
        exact exchange_authorizedBy _
          (session.log .debug call s!"following redirect to {location}") request

theorem conclude_withToken (outcome : Outcome) (summary : String) (session : Session) :
    (client.withToken token).conclude call outcome summary session =
      client.conclude call outcome summary session := rfl

theorem finish_withToken (response : Http.Response) (session : Session) :
    (client.withToken token).finish call response session =
      client.finish call response session := by
  simp only [finish, conclude_withToken]

theorem save_withToken (path : String) (response : Http.Response) (session : Session) :
    (client.withToken token).save call path response session =
      client.save call path response session := by
  simp only [save, conclude_withToken]

/-- A call made with another token does the same, but for the authorization of its requests. -/
theorem perform_withToken (known : client.token.isSome) (call : Call) (session : Session) :
    (client.withToken token).perform call (session.authorizedBy ("Bearer " ++ token)) =
      Prod.map id (Session.authorizedBy ("Bearer " ++ token)) (client.perform call session) := by
  simp only [perform, requestOf_withToken known]
  cases client.requestOf call with
  | error failure => rfl
  | ok request =>
    simp only [Except.map, exchange_authorizedBy]
    rcases session.exchange call request with ⟨_ | response, middle⟩
    · rfl
    · cases call with
      | downloadArtifact artifact path =>
        simp only [Prod.map_apply, id_eq, follow_withToken known]
        rcases client.follow (.downloadArtifact artifact path) response middle with
          ⟨_ | last, after⟩
        · rfl
        · simp only [Prod.map_apply, id_eq, save_withToken, save_authorizedBy]
      | _ => simp only [Prod.map_apply, id_eq, finish_withToken, finish_authorizedBy]

/-- A step with another token is the same step, up to the authorization. -/
theorem step_withToken (known : client.token.isSome) (call : Call) (network : Http.Network)
    (files : Files) :
    (client.withToken token).step call network files =
      (client.step call network files).authorizedBy ("Bearer " ++ token) := by
  have performed : (client.withToken token).perform call (.start network files) = _ :=
    perform_withToken known call (.start network files)
  simp only [step, performed]
  rfl

theorem performAll_withToken (known : client.token.isSome) (calls : List (Call × Http.Network))
    (files : Files) :
    (client.withToken token).performAll calls files =
      (client.performAll calls files).map (Step.authorizedBy ("Bearer " ++ token)) := by
  induction calls generalizing files with
  | nil => rfl
  | cons next calls ih =>
    obtain ⟨call, network⟩ := next
    have files' : ((client.step call network files).authorizedBy ("Bearer " ++ token)).files =
        (client.step call network files).files := rfl
    simp only [performAll, step_withToken known, files', ih, List.map_cons]

/-- Holds of a request that tells the token, if any, to the server of the interface alone. -/
def Confines (client : Client) (request : Http.Request) : Prop :=
  request.authorization = none ∨
    request.uri.authority = client.base.authority ∧
      request.authorization = client.token.map ("Bearer " ++ ·)

theorem confines_request (client : Client) (method : Http.Method) (reference : Http.Uri)
    (content : Option Json) : client.Confines (client.request method reference content) := by
  by_cases own : (client.place reference).authority = client.base.authority
  · exact Or.inr ⟨own, if_pos own⟩
  · exact Or.inl (if_neg own)

/-- A redirect to another server leaves the authorization behind. -/
theorem confines_of_next? {request again : Http.Request} {response : Http.Response}
    (confined : client.Confines request)
    (follows : Http.Traffic.next? request response = some again) : client.Confines again := by
  obtain ⟨bare, uri, redirects, rfl⟩ := Http.Traffic.next?_cases follows
  have kept : bare.authorization = request.authorization := by
    rcases Http.Traffic.redirected_cases redirects with ⟨rfl, _⟩ | rfl <;> rfl
  -- A redirect to the same origin stays with a server that was told the token already.
  by_cases same : request.uri.sameOrigin uri
  · have authority : request.uri.authority = uri.authority := by
      simp only [Http.Uri.sameOrigin, Bool.and_eq_true, decide_eq_true_eq] at same
      exact same.2
    rcases confined with none | ⟨own, told⟩
    · exact Or.inl (by simp only [same, if_true, kept, none])
    · exact Or.inr ⟨authority.symm.trans own, by simp only [same, if_true, kept, told]⟩
  · exact Or.inl (if_neg same)

/-- Whatever the responses are, the token is sent to the server of the interface only. -/
theorem perform_confines (client : Client) (call : Call) (session : Session) :
    ∃ sent, (client.perform call session).2.traffic.arrived = session.traffic.arrived ++ sent ∧
      ∀ request ∈ sent, client.Confines request := by
  refine perform_forall_arrived client.Confines ?_ confines_of_next? ?_ session
  · intro request made
    obtain ⟨reference, rfl⟩ := request_of_requestOf made
    exact confines_request client _ reference _
  · intro request response points
    obtain ⟨reference, rfl⟩ := request_of_pointedTo? points
    exact confines_request client _ reference _

theorem performAll_confines (client : Client) (calls : List (Call × Http.Network)) (files : Files) :
    ∀ step ∈ client.performAll calls files, ∀ request ∈ step.requests, client.Confines request := by
  refine performAll_forall (fun _ => True) _ (fun call network files _ => ⟨?_, trivial⟩) calls trivial
  obtain ⟨sent, arrived, confined⟩ := perform_confines client call (.start network files)
  have all : (client.step call network files).requests = sent := arrived
  rwa [all]

theorem token_of_make {access : Access} (made : make access = .ok client) :
    client.token = access.token := by
  unfold make at made
  split at made
  · cases made
  · split at made
    · cases made
      rfl
    · cases made

theorem withToken_of_make {access : Access} {one other : String} {first second : Client}
    (made : make { access with token := some one } = .ok first)
    (made' : make { access with token := some other } = .ok second) :
    second = first.withToken other := by
  unfold make at made made'
  cases parsed : Http.Uri.parse access.address with
  | error fault => simp [parsed] at made
  | ok base =>
    simp only [parsed] at made made'
    split at made
    · split at made'
      · cases made
        cases made'
        rfl
      · cases made'
    · cases made

/-- Clients that differ in the token alone do the same: all results, events and files agree, and so
do the requests but for the authorization of some. These are sent to the server of the interface, and
no others have one. -/
theorem performAll_of_tokens {access : Access} {one other : String} {first second : Client}
    (made : make { access with token := some one } = .ok first)
    (made' : make { access with token := some other } = .ok second)
    (calls : List (Call × Http.Network)) (files : Files) :
    second.performAll calls files =
        (first.performAll calls files).map (Step.authorizedBy ("Bearer " ++ other)) ∧
      ∀ step ∈ first.performAll calls files, ∀ request ∈ step.requests,
        request.authorization = none ∨
          request.uri.authority = first.base.authority ∧
            request.authorization = some ("Bearer " ++ one) := by
  have known : first.token = some one := token_of_make made
  have same := withToken_of_make made made'
  subst same
  refine ⟨performAll_withToken (by simp [known]) calls files, ?_⟩
  intro step member request sent
  have confined := performAll_confines first calls files step member request sent
  simpa [Confines, known] using confined

/-- An artifact lies on another server, which is not told the token. -/
theorem performAll_of_tokens_artifact :
    let network : Http.Network := ⟨["api.github.com", "blobs.example"],
      [⟨302, [("location", Octets.ofText "https://blobs.example/logs.zip")], []⟩,
       ⟨200, [], Octets.ofText "zip"⟩]⟩
    let calls : List (Call × Http.Network) := [(.downloadArtifact 55 "logs.zip", network)]
    ((usual (some "one")).performAll calls .empty).map (fun step => step.requests.map fun request =>
        (request.uri.authority, request.authorization)) =
        [[(some "api.github.com", some "Bearer one"), (some "blobs.example", none)]] ∧
      (usual (some "other")).performAll calls .empty =
        ((usual (some "one")).performAll calls .empty).map (Step.authorizedBy ("Bearer " ++ "other")) := by
  intro network calls
  obtain ⟨same, _⟩ := @performAll_of_tokens ⟨usualAddress, usualRepository, none⟩ "one" "other"
    (usual (some "one")) (usual (some "other")) (make_usual (by decide)) (make_usual (by decide))
    calls .empty
  exact ⟨by decide +kernel, same⟩

end Client

end WorkflowKit.GitHub
