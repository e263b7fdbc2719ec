import WorkflowKit.Proofs.GitHub.Plan

namespace WorkflowKit.GitHub.Client

variable {client : Client} {call : Call} {stage : Stage} {network after : Http.Network}
  {sent : List (Http.Request × Http.Response)} {result : Except Http.TransportFault Http.Response}

theorem method_of_requestOf {request : Http.Request} (made : client.requestOf call = .ok request) :
    request.method = call.method := by
  obtain ⟨reference, rfl⟩ := request_of_requestOf made
  rfl

theorem method_of_isDownload (download : call.isDownload) : call.method = .get := by
  cases call with
  | downloadArtifact => rfl
  | _ => cases download

theorem method_of_pointedTo? {request : Http.Request} {response : Http.Response}
    (points : client.pointedTo? call response = some request) : request.method = .get := by
  obtain ⟨reference, rfl⟩ := request_of_pointedTo? points
  rfl

/-- The method of a request stays, or becomes that of one that only reads. -/
theorem method_of_plan {again : Stage} {response : Http.Response}
    (follows : (client.plan call).next? stage response = some again) :
    again.request.method = stage.request.method ∨ again.request.method = .get := by
  rcases plan_next?_cases follows with same | redirects | points
  · exact Or.inl (congrArg _ same)
  · exact Http.Traffic.method_of_next? redirects
  · exact Or.inr (method_of_pointedTo? points)

theorem all_get (run : (client.plan call).Run stage network sent result after)
    (get : stage.request.method = .get) : ∀ delivery ∈ sent, delivery.1.method = .get := by
  have step : ∀ {stage response again}, stage.request.method = .get →
      (client.plan call).next? stage response = some again → again.request.method = .get := by
    intro stage response again get follows
    rcases method_of_plan follows with kept | get'
    · exact kept.trans get
    · exact get'
  exact run.forall_sent (·.method = .get) step get

/-- A run has only requests that read exactly if its first one reads or gets to no server. -/
theorem all_get_iff (run : (client.plan call).Run stage network sent result after) :
    (∀ delivery ∈ sent, delivery.1.method = .get) ↔
      (network.Reaches stage.request → stage.request.method = .get) := by
  constructor
  · intro get reached
    cases run with
    | lost unreached => exact absurd reached unreached
    | last => exact get _ List.mem_cons_self
    | next => exact get _ List.mem_cons_self
  · intro get
    by_cases reached : network.Reaches stage.request
    · exact all_get run (get reached)
    · cases run with
      | lost => exact List.forall_mem_nil _
      | last reached' => exact absurd reached' reached
      | next reached' => exact absurd reached' reached

/-- A request that changes something is the only one of the kind if what follows only reads. -/
theorem writes_le_one_iff (run : (client.plan call).Run stage network sent result after)
    (writes : stage.request.method ≠ .get) :
    (sent.filter (·.1.method ≠ .get)).length ≤ 1 ↔
      ∀ again, network.Reaches stage.request →
        (client.plan call).next? stage network.answer = some again →
        network.Reaches again.request → again.request.method = .get := by
  cases run with
  | lost unreached =>
    rw [plan_request] at unreached
    simp [unreached]
  | last reached stop =>
    have bound := List.length_filter_le (·.1.method ≠ .get) [(stage.request, network.answer)]
    simpa [stop] using bound
  | @next _ again _ rest _ _ reached follows others =>
    rw [plan_request] at reached
    have reads := all_get_iff others
    rw [Http.Network.reaches_advanced] at reads
    have count : (((stage.request, network.answer) :: rest).filter (·.1.method ≠ .get)).length ≤ 1 ↔
        rest.filter (·.1.method ≠ .get) = [] := by
      rw [List.filter_cons_of_pos (by simpa using writes), List.length_cons, Nat.succ_le_succ_iff,
        Nat.le_zero, List.length_eq_zero_iff]
    rw [plan_request, count, List.filter_eq_nil_iff]
    simp only [reached, follows, Option.some.injEq, forall_eq', true_implies, ← reads]
    simp

/-- What follows the first request of a call that goes no further than its exchange. -/
theorem forall_follows_first_iff (client : Client) (only : call.isDownload = false)
    (request : Http.Request) (response : Http.Response) (Holds : Http.Request → Prop) :
    (∀ again, (client.plan call).next? (.first call request) response = some again →
        Holds again.request) ↔
      (Http.Traffic.isTemporary response → Holds request) ∧
        ∀ again, Http.Traffic.next? request response = some again → Holds again := by
  by_cases temporary : Http.Traffic.isTemporary response
  · have stops := Http.Traffic.next?_of_temporary temporary request
    simp [plan, Stage.first, Http.Leg.first, Http.Leg.next?, Http.Traffic.repeatLimit, temporary,
      stops]
  · cases redirects : Http.Traffic.next? request response with
    | none =>
      simp [plan, Stage.first, Http.Leg.first, Http.Leg.next?, Http.Traffic.redirectLimit,
        temporary, redirects, only]
    | some again =>
      simp [plan, Stage.first, Http.Leg.first, Http.Leg.next?, Http.Traffic.redirectLimit,
        temporary, redirects]

/-- One request is sent exactly if it gets to a server and the response is neither temporary nor a
redirect that can be followed. -/
theorem first_length_eq_one_iff {request : Http.Request} (only : call.isDownload = false)
    (run : (client.plan call).Run (.first call request) network sent result after) :
    sent.length = 1 ↔
      network.Reaches request ∧ ¬ Http.Traffic.isTemporary network.answer ∧
        ∀ again, Http.Traffic.next? request network.answer = some again →
          ¬ network.Reaches again := by
  have first := forall_follows_first_iff client only request network.answer
    fun again => ¬ network.Reaches again
  simp only [run.length_eq_one_iff, plan_request, first, Stage.first_request]
  refine and_congr_right fun reached => and_congr_left fun _ => ?_
  exact ⟨fun repeated temporary => repeated temporary reached,
    fun lasting temporary => absurd temporary lasting⟩

theorem first_writes_le_one_iff {request : Http.Request} (made : client.requestOf call = .ok request)
    (run : (client.plan call).Run (.first call request) network sent result after) :
    (sent.filter (·.1.method ≠ .get)).length ≤ 1 ↔
      (request.method ≠ .get → network.Reaches request →
        ¬ Http.Traffic.isTemporary network.answer ∧
        ∀ again, Http.Traffic.next? request network.answer = some again →
          network.Reaches again → again.method = .get) := by
  by_cases get : request.method = .get
  · have none : sent.filter (·.1.method ≠ .get) = [] :=
      List.filter_eq_nil_iff.mpr fun delivery member => by simp [all_get run get delivery member]
    rw [none]
    exact ⟨fun _ writes => absurd get writes, fun _ => Nat.zero_le _⟩
  · have only : call.isDownload = false := by
      rw [Bool.eq_false_iff]
      intro download
      exact get ((method_of_requestOf made).trans (method_of_isDownload download))
    have first := forall_follows_first_iff client only request network.answer
      fun again => network.Reaches again → again.method = .get
    rw [writes_le_one_iff run get]
    constructor
    · intro follows _ reached
      obtain ⟨repeated, redirects⟩ := first.mp fun again => follows again reached
      exact ⟨fun temporary => get (repeated temporary reached), redirects⟩
    · intro follows again reached
      obtain ⟨lasting, redirects⟩ := follows get reached
      exact first.mpr ⟨fun temporary => absurd temporary lasting, redirects⟩ again

/-- Exactly one request of a call arrives unless the response makes another one follow: a temporary
failure, or a redirect. For an artifact two may, and what changes something arrives twice only after
a temporary failure or a redirect that keeps the method. -/
theorem perform_deliveries (client : Client) (call : Call) (session : Session) :
    ∃ sent : List Http.Request,
      (client.perform call session).2.traffic.arrived = session.traffic.arrived ++ sent ∧
      (call.isDownload = false →
        (sent.length = 1 ↔
          ∃ request, client.requestOf call = .ok request ∧
            session.traffic.network.Reaches request ∧
            ¬ Http.Traffic.isTemporary session.traffic.network.answer ∧
            ∀ again, Http.Traffic.next? request session.traffic.network.answer = some again →
              ¬ session.traffic.network.Reaches again)) ∧
      (call.isDownload = true →
        (sent.length ≤ 2 ↔
          ∀ request second third, client.requestOf call = .ok request →
            session.traffic.network.Reaches request →
            (client.plan call).next? (.first call request) session.traffic.network.answer =
              some second →
            session.traffic.network.Reaches second.request →
            (client.plan call).next? second session.traffic.network.advanced.answer = some third →
            ¬ session.traffic.network.Reaches third.request)) ∧
      ((sent.filter (·.method ≠ .get)).length ≤ 1 ↔
        ∀ request, client.requestOf call = .ok request → request.method ≠ .get →
          session.traffic.network.Reaches request →
          ¬ Http.Traffic.isTemporary session.traffic.network.answer ∧
          ∀ again, Http.Traffic.next? request session.traffic.network.answer = some again →
            session.traffic.network.Reaches again → again.method = .get) := by
  cases made : client.requestOf call with
  | error failure => exact ⟨[], by simp [perform_of_error made]⟩
  | ok request =>
    obtain ⟨sent, result, after, run, arrived⟩ := perform_run made session
    have count : ((sent.map (·.1)).filter (·.method ≠ .get)).length =
        (sent.filter (·.1.method ≠ .get)).length := by
      rw [List.filter_map, List.length_map]
      rfl
    refine ⟨sent.map (·.1), arrived, fun only => ?_, fun _ => ?_, ?_⟩
    · simp only [List.length_map, first_length_eq_one_iff only run, Except.ok.injEq,
        exists_eq_left']
    -- The plan of a download goes on to a third stage in the same way as to a second one.
    · rw [List.length_map, run.length_le_two_iff]
      simp only [plan_request, Stage.first_request, Except.ok.injEq]
      constructor
      · rintro stops _ second third rfl
        exact stops second third
      · intro stops second third
        exact stops request second third rfl
    · simp only [count, first_writes_le_one_iff made run, Except.ok.injEq, forall_eq']

/-- An issue is created four times over when the server, which got the request, says it is down. -/
theorem createIssue_arrives_four_times :
    (make ⟨usualAddress, usualRepository, some "tok"⟩).toOption.map (fun client =>
      (client.perform (.createIssue "T" "l") (.start
        ⟨["api.github.com"], [⟨503, [], Octets.ofText "\x7b\"message\": \"down\"\x7d"⟩]⟩
        .empty)).2.traffic.arrived.map fun request => (request.method, request.uri.target)) =
      some (List.replicate 4 (.post, "/repos/firebase/firebase-cpp-sdk/issues")) := by
  decide +kernel

end WorkflowKit.GitHub.Client
