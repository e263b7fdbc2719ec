import WorkflowKit.Proofs.GitHub.Deliveries

namespace WorkflowKit.Http

namespace Traffic

/-- Holds if a redirect with a status replaces a request of a method by one that only reads. -/
def givesUp (method : Method) (status : Nat) : Bool :=
  status = 303 || (method = .post && (status = 301 || status = 302))

/-- A redirect keeps the method, or gives it up for one that only reads. -/
theorem method_of_redirected {request bare : Request} {status : Nat}
    (redirects : redirected request status = some bare) :
    bare.method = if givesUp request.method status then .get else request.method := by
  simp only [redirected] at redirects
  split_ifs at redirects with moved post empty other moved' empty
  · cases redirects
    rcases moved with rfl | rfl <;> simp [givesUp, post]
  · cases redirects
    rcases moved with rfl | rfl <;> simp [givesUp, post]
  · cases redirects
    simp [givesUp, other]
  · cases redirects
    rcases moved' with rfl | rfl <;> simp [givesUp]

theorem not_isSuccess_of_temporary {response : Response} (temporary : isTemporary response) :
    ¬ response.isSuccess := by
  simp only [isTemporary, Response.isServerError, Response.isSuccess, Bool.or_eq_true,
    Bool.and_eq_true, decide_eq_true_eq] at temporary ⊢
  omega

theorem not_isSuccess_of_redirected {request bare : Request} {response : Response}
    (redirects : redirected request response.status = some bare) : ¬ response.isSuccess := by
  simp only [Response.isSuccess, Bool.and_eq_true, decide_eq_true_eq]
  simp only [redirected] at redirects
  split_ifs at redirects <;> omega

theorem not_givesUp_of_isSuccess {response : Response} (success : response.isSuccess)
    (method : Method) : ¬ givesUp method response.status := by
  simp only [Response.isSuccess, Bool.and_eq_true, decide_eq_true_eq] at success
  simp only [givesUp, Bool.or_eq_true, Bool.and_eq_true, decide_eq_true_eq]
  omega

theorem not_givesUp_of_temporary {response : Response} (temporary : isTemporary response)
    (method : Method) : ¬ givesUp method response.status := by
  simp only [isTemporary, Response.isServerError, Bool.or_eq_true, Bool.and_eq_true,
    decide_eq_true_eq] at temporary
  simp only [givesUp, Bool.or_eq_true, Bool.and_eq_true, decide_eq_true_eq]
  omega

end Traffic

namespace Leg

variable {leg again : Leg} {response : Response} {network after : Network}
  {sent : List (Request × Response)}

/-- A request follows a temporary failure, and then it is the same, or a redirect. -/
theorem next?_status (follows : leg.next? response = some again) :
    (Traffic.isTemporary response ∧ again.request = leg.request) ∨
      ∃ bare, Traffic.redirected leg.request response.status = some bare ∧
        again.request.method = bare.method := by
  unfold next? at follows
  split at follows
  · rename_i temporary
    split at follows
    · cases follows
    · cases follows
      exact Or.inl ⟨temporary, rfl⟩
  · split at follows
    · cases follows
    · obtain ⟨request, followed, rfl⟩ := Option.map_eq_some_iff.mp follows
      obtain ⟨bare, uri, redirects, rfl⟩ := Traffic.next?_cases followed
      exact Or.inr ⟨bare, redirects, rfl⟩

/-- What follows a response has the method of the request, or reads if a redirect gives that up. -/
theorem method_of_next? (follows : leg.next? response = some again) :
    again.request.method =
      if Traffic.givesUp leg.request.method response.status then .get else leg.request.method := by
  rcases next?_status follows with ⟨temporary, same⟩ | ⟨bare, redirects, same⟩
  · rw [if_neg (Traffic.not_givesUp_of_temporary temporary _), same]
  · rw [same, Traffic.method_of_redirected redirects]

theorem not_isSuccess_of_next? (follows : leg.next? response = some again) :
    ¬ response.isSuccess := by
  rcases next?_status follows with ⟨temporary, _⟩ | ⟨bare, redirects, _⟩
  · exact Traffic.not_isSuccess_of_temporary temporary
  · exact Traffic.not_isSuccess_of_redirected redirects

/-- What starts with a request that only reads goes on so, as no redirect brings a method back. -/
theorem all_get {result : Except TransportFault Response}
    (run : Leg.plan.Run leg network sent result after) (get : leg.request.method = .get) :
    ∀ delivery ∈ sent, delivery.1.method = .get := by
  have step : ∀ {leg response again}, leg.request.method = .get →
      Leg.plan.next? leg response = some again → again.request.method = .get := by
    intro leg response again get follows
    rw [method_of_next? follows, get, ite_self]
  exact run.forall_sent (·.method = .get) step get

/-- A run that ends with a success has one for a request of the first method exactly if no redirect
gives the method up. -/
theorem acknowledged_iff {method : Method} (run : Leg.plan.Run leg network sent (.ok response) after)
    (success : response.isSuccess) (own : leg.request.method = method) (changes : method ≠ .get) :
    (∃ delivery ∈ sent, delivery.1.method = method ∧ delivery.2.isSuccess) ↔
      ∀ delivery ∈ sent, ¬ Traffic.givesUp method delivery.2.status := by
  -- As long as no redirect gives the method up, the rest of the run is one of the same kind.
  generalize ended : Except.ok response = result at run
  induction run with
  | lost => cases ended
  | last =>
    cases ended
    have kept := Traffic.not_givesUp_of_isSuccess success method
    simp only [List.mem_singleton, exists_eq_left, forall_eq]
    exact iff_of_true ⟨own, success⟩ kept
  | next _ follows others ih =>
    have failed := not_isSuccess_of_next? follows
    have method' := method_of_next? follows
    rw [own] at method'
    simp only [List.mem_cons, exists_eq_or_imp, forall_eq_or_imp, failed, Bool.false_eq_true,
      and_false, false_or]
    split at method'
    · -- All that follows reads, so that no success is one of the method that was given up.
      rename_i given
      simp only [given, not_true_eq_false, false_and, iff_false, not_exists, not_and]
      intro delivery member own'
      exact absurd (own'.symm.trans (all_get others method' delivery member)) changes
    · rename_i kept
      rw [ih method' ended, and_iff_right kept]

end Leg

end WorkflowKit.Http

namespace WorkflowKit.GitHub.Client

variable {client : Client} {call : Call}

/-- A call that succeeds has had a successful response, be it to its own method or not. -/
theorem isSuccess_of_finish {response : Http.Response} {session : Session}
    (succeeds : (client.finish call response session).1.isOk) : response.isSuccess := by
  cases success : response.isSuccess with
  | true => rfl
  | false => simp [finish, Call.answered, success, Except.isOk, Except.toBool] at succeeds

/-- A call that changes something and succeeds is a run that ends with a success. -/
theorem run_of_perform_isOk (only : call.isDownload = false) {session : Session}
    (succeeds : (client.perform call session).1.isOk) :
    ∃ request sent response after, client.requestOf call = .ok request ∧
      Http.Leg.plan.Run (.first request) session.traffic.network sent (.ok response) after ∧
      (client.perform call session).2.traffic.arrived =
        session.traffic.arrived ++ sent.map (·.1) ∧
      response.isSuccess := by
  cases made : client.requestOf call with
  | error failure => simp [perform_of_error made, Except.isOk, Except.toBool] at succeeds
  | ok request =>
    rw [perform_of_not_isDownload only made] at succeeds ⊢
    obtain ⟨sent, middle, _, arrived, ⟨fault, exchanged, _⟩ | ⟨response, exchanged, run⟩⟩ :=
      exchange_cases call session request
    · rw [exchanged] at succeeds
      cases succeeds
    · rw [exchanged] at succeeds ⊢
      refine ⟨request, sent, response, _, rfl, run, ?_, isSuccess_of_finish succeeds⟩
      exact (finish_arrived response middle).trans arrived

/-- A call that changes something and succeeds ends with a success of the server. It is a success of
a request of the call's own method unless a redirect gave that up for one that only reads. -/
theorem perform_acknowledged_iff (client : Client) (call : Call) (session : Session)
    (changes : call.method ≠ .get) (succeeds : (client.perform call session).1.isOk) :
    ∃ sent, (client.perform call session).2.traffic.arrived = session.traffic.arrived ++ sent ∧
      (∃ delivery, (session.traffic.network.answered sent).getLast? = some delivery ∧
        delivery.2.isSuccess) ∧
      ((∃ delivery ∈ session.traffic.network.answered sent,
          delivery.1.method = call.method ∧ delivery.2.isSuccess) ↔
        ∀ delivery ∈ session.traffic.network.answered sent,
          ¬ Http.Traffic.givesUp call.method delivery.2.status) := by
  have only : call.isDownload = false := by
    rw [Bool.eq_false_iff]
    exact fun download => changes (method_of_isDownload download)
  obtain ⟨request, sent, response, after, made, run, arrived, success⟩ :=
    run_of_perform_isOk only succeeds
  obtain ⟨last, ends⟩ := run.getLast?_of_ok
  refine ⟨sent.map (·.1), arrived, ?_, ?_⟩
  · rw [run.answered]
    exact ⟨_, ends, success⟩
  · rw [run.answered]
    exact Http.Leg.acknowledged_iff run success (method_of_requestOf made) changes

theorem createIssue_acknowledged :
    let network : Http.Network := ⟨["api.github.com"], [⟨201, [], Octets.ofText "\x7b\x7d"⟩]⟩
    let done := (usual (some "tok")).perform (.createIssue "T" "l") (.start network .empty)
    ∃ delivery ∈ network.answered done.2.traffic.arrived,
      delivery.1.method = .post ∧ delivery.2.isSuccess := by
  intro network done
  obtain ⟨sent, arrived, _, acknowledged⟩ := perform_acknowledged_iff (usual (some "tok"))
    (.createIssue "T" "l") (.start network .empty) (by decide) (by decide +kernel)
  have all : done.2.traffic.arrived = sent := arrived
  rw [all]
  refine acknowledged.mpr ?_
  rw [← all]
  decide +kernel

/-- The server answers the request for an issue by pointing to a page, and the page counts as the
issue. -/
theorem createIssue_succeeds_without_issue :
    (make ⟨usualAddress, usualRepository, some "tok"⟩).toOption.map (fun client =>
      let network : Http.Network := ⟨["api.github.com"],
        [⟨303, [("location", Octets.ofText "https://api.github.com/elsewhere")],
          Octets.ofText "\x7b\"message\": \"See other\"\x7d"⟩,
         ⟨200, [], Octets.ofText "\x7b\x7d"⟩]⟩
      let (result, session) := client.perform (.createIssue "T" "l") (.start network .empty)
      (result.isOk, (network.answered session.traffic.arrived).map fun delivery =>
        (delivery.1.method, delivery.2.status))) =
      some (true, [(.post, 303), (.get, 200)]) := by
  decide +kernel

end WorkflowKit.GitHub.Client
