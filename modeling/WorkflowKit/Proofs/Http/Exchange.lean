import WorkflowKit.Proofs.Http.Plan
import Mathlib.Tactic.SplitIfs

namespace WorkflowKit.Http

/-- A request on its way, how often it may be repeated, and how many redirects may follow. -/
structure Leg where
  request : Request
  repeats : Nat
  redirects : Nat

namespace Leg

/-- A request that has not been sent yet. -/
def first (request : Request) : Leg := ⟨request, Traffic.repeatLimit, Traffic.redirectLimit⟩

/-- What follows a response, unless it is the last one. -/
def next? (leg : Leg) (response : Response) : Option Leg :=
  if Traffic.isTemporary response then
    if leg.repeats = 0 then none else some { leg with repeats := leg.repeats - 1 }
  else if leg.redirects = 0 then none
  else
    (Traffic.next? leg.request response).map fun again =>
      ⟨again, Traffic.repeatLimit, leg.redirects - 1⟩

/-- A repetition uses up one of those left, and a redirect renews them. -/
theorem next?_cases {leg again : Leg} {response : Response}
    (follows : leg.next? response = some again) :
    (∃ repeats, leg.repeats = repeats + 1 ∧ again = ⟨leg.request, repeats, leg.redirects⟩) ∨
      ∃ request redirects, leg.redirects = redirects + 1 ∧
        Traffic.next? leg.request response = some request ∧
        again = ⟨request, Traffic.repeatLimit, redirects⟩ := by
  obtain ⟨request, repeats, redirects⟩ := leg
  unfold next? at follows
  split at follows
  · left
    cases repeats with
    | zero => cases follows
    | succ repeats => exact ⟨repeats, rfl, (Option.some.inj follows).symm⟩
  · right
    cases redirects with
    | zero => cases follows
    | succ redirects =>
      obtain ⟨request', redirected, rfl⟩ := Option.map_eq_some_iff.mp follows
      exact ⟨request', redirects, rfl, redirected, rfl⟩

/-- Each request uses up a repetition, or a redirect, after which repetitions may start anew. -/
theorem next?_decreases {leg again : Leg} {response : Response}
    (follows : leg.next? response = some again) :
    Prod.Lex (· < ·) (· < ·) (again.redirects, again.repeats) (leg.redirects, leg.repeats) := by
  rcases next?_cases follows with ⟨repeats, left, rfl⟩ | ⟨request, redirects, left, _, rfl⟩
  · exact .right _ (by simp only; omega)
  · exact .left _ _ (by simp only; omega)

/-- The plan that an exchange follows. -/
def plan : Plan Leg := ⟨request, next?⟩

/-- An exchange has an end: each redirect allows for no more than its own repetitions. -/
theorem length_le_of_run {leg : Leg} {network after : Network} {sent : List (Request × Response)}
    {result : Except TransportFault Response} (run : plan.Run leg network sent result after) :
    sent.length ≤ leg.redirects * (Traffic.repeatLimit + 1) + leg.repeats + 1 := by
  induction run with
  | lost => exact Nat.zero_le _
  | last => exact Nat.succ_le_succ (Nat.zero_le _)
  | @next leg again _ _ _ _ _ follows _ ih =>
    rw [List.length_cons]
    rcases next?_cases follows with ⟨repeats, left, rfl⟩ | ⟨request, redirects, left, _, rfl⟩
    · have bound : _ ≤ leg.redirects * (Traffic.repeatLimit + 1) + repeats + 1 := ih
      omega
    · have bound : _ ≤ redirects * (Traffic.repeatLimit + 1) + Traffic.repeatLimit + 1 := ih
      rw [left, Nat.succ_mul]
      omega

end Leg

namespace Traffic

/-- What is logged about the end of an exchange. -/
def reported : Except TransportFault Response → List Event
  | .ok response =>
    if response.isServerError then
      let phrase := serverErrorPhrase response.status
      [⟨.error, .transport, s!"failed with status {response.status} {phrase}"⟩]
    else []
  | .error fault =>
    if fault.isLogged then [⟨.error, .transport, s!"failed with error {fault.message}"⟩] else []

/-- Adds what is logged about the end of an exchange. -/
def report (outcome : Except TransportFault Response × Traffic) :
    Except TransportFault Response × Traffic :=
  (outcome.1, { outcome.2 with events := outcome.2.events ++ reported outcome.1 })

theorem send_eq (request : Request) (traffic : Traffic) :
    traffic.send request = report (traffic.sendAgain request repeatLimit) := by
  unfold send report reported
  rcases traffic.sendAgain request repeatLimit with ⟨_ | response, after⟩
  · rename_i fault
    cases logged : fault.isLogged <;> simp [log, logged]
  · cases failed : response.isServerError <;> simp [log, failed]

/-- A temporary failure is no redirect, so the two reasons to go on exclude each other. -/
theorem redirected_of_temporary {response : Response} (temporary : isTemporary response)
    (request : Request) : redirected request response.status = none := by
  have status : 500 ≤ response.status ∨ response.status = 429 := by
    simp only [isTemporary, Response.isServerError, Bool.or_eq_true, Bool.and_eq_true,
      decide_eq_true_eq] at temporary
    omega
  simp only [redirected]
  rw [if_neg (by omega), if_neg (by omega), if_neg (by omega)]

theorem next?_of_temporary {response : Response} (temporary : isTemporary response)
    (request : Request) : next? request response = none := by
  simp [next?, redirected_of_temporary temporary]

theorem reported_of_not_temporary {response : Response} (lasting : ¬ isTemporary response) :
    reported (.ok response) = [] := by
  simp only [isTemporary, Bool.or_eq_true, not_or] at lasting
  simp [reported, lasting.1]

/-- A redirect is followed with the request itself, which has no body, or with one that only reads. -/
theorem redirected_cases {request bare : Request} {status : Nat}
    (redirects : redirected request status = some bare) :
    (bare = request ∧ request.body = []) ∨
      bare = { request with method := .get, contentType := none, body := [] } := by
  simp only [redirected] at redirects
  split_ifs at redirects with _ _ empty _ _ empty
  · exact Or.inr (Option.some.inj redirects).symm
  · exact Or.inl ⟨(Option.some.inj redirects).symm, List.isEmpty_iff.mp empty⟩
  · exact Or.inr (Option.some.inj redirects).symm
  · exact Or.inl ⟨(Option.some.inj redirects).symm, List.isEmpty_iff.mp empty⟩

/-- What the request that follows a redirect is made of. -/
theorem next?_cases {request again : Request} {response : Response}
    (follows : next? request response = some again) :
    ∃ bare uri, redirected request response.status = some bare ∧
      again = { bare with
        uri
        authorization := if request.uri.sameOrigin uri then bare.authorization else none } := by
  obtain ⟨bare, redirects, others⟩ := Option.bind_eq_some_iff.mp follows
  obtain ⟨location, _, others⟩ := Option.bind_eq_some_iff.mp others
  obtain ⟨reference, _, others⟩ := Option.bind_eq_some_iff.mp others
  obtain ⟨uri, _, same⟩ := Option.bind_eq_some_iff.mp others
  exact ⟨bare, uri, redirects, (Option.some.inj same).symm⟩

theorem method_of_next? {request again : Request} {response : Response}
    (follows : next? request response = some again) :
    again.method = request.method ∨ again.method = .get := by
  obtain ⟨bare, uri, redirects, rfl⟩ := next?_cases follows
  rcases redirected_cases redirects with ⟨rfl, _⟩ | rfl
  · exact Or.inl rfl
  · exact Or.inr rfl

/-- The rest of an exchange, from a request on its way. -/
def pursue (leg : Leg) (traffic : Traffic) : Except TransportFault Response × Traffic :=
  match report (traffic.sendAgain leg.request leg.repeats) with
  | (.ok response, after) =>
    match leg.redirects with
    | 0 => (.ok response, after)
    | redirects + 1 =>
      match next? leg.request response with
      | some again => followed redirects again after
      | none => (.ok response, after)
  | (.error fault, after) => (.error fault, after)

theorem followed_eq (redirects : Nat) (request : Request) (traffic : Traffic) :
    followed redirects request traffic = pursue ⟨request, repeatLimit, redirects⟩ traffic := by
  rcases sent : report (traffic.sendAgain request repeatLimit) with ⟨_ | response, after⟩
  · cases redirects <;> simp [followed, pursue, send_eq, sent]
  · cases redirects with
    | zero => simp [followed, pursue, send_eq, sent]
    | succ redirects =>
      cases follows : next? request response <;>
        simp [followed, pursue, send_eq, sent, follows]

/-- A request that gets to no server ends an exchange. -/
theorem pursue_of_not_reaches {leg : Leg} {traffic : Traffic}
    (lost : ¬ traffic.network.Reaches leg.request) :
    pursue leg traffic = report (.error leg.request.fault, traffic) := by
  have sent : traffic.sendAgain leg.request leg.repeats = (.error leg.request.fault, traffic) := by
    cases leg.repeats <;> simp only [sendAgain, sendOnce_of_not_reaches lost]
  simp only [pursue, sent, report]

/-- A response ends an exchange, or the exchange goes on with what follows. -/
theorem pursue_of_reaches {leg : Leg} {traffic : Traffic}
    (reached : traffic.network.Reaches leg.request) :
    pursue leg traffic =
      match leg.next? traffic.network.answer with
      | some again => pursue again (traffic.delivered leg.request)
      | none => report (.ok traffic.network.answer, traffic.delivered leg.request) := by
  obtain ⟨request, repeats, redirects⟩ := leg
  have once := sendOnce_of_reaches reached
  by_cases temporary : isTemporary traffic.network.answer
  · cases repeats with
    | zero =>
      simp only [pursue, sendAgain, once, Leg.next?, temporary, report, if_true,
        next?_of_temporary temporary]
      cases redirects <;> rfl
    | succ repeats => simp [pursue, sendAgain, once, Leg.next?, temporary]
  · -- The repetitions are over at once, whatever is left of them.
    have sent : traffic.sendAgain request repeats =
        (.ok traffic.network.answer, traffic.delivered request) := by
      cases repeats <;> simp [sendAgain, once, temporary]
    have silent : report (.ok traffic.network.answer, traffic.delivered request) =
        (.ok traffic.network.answer, traffic.delivered request) := by
      simp [report, reported_of_not_temporary temporary]
    rw [pursue, sent, silent]
    cases redirects with
    | zero => simp [Leg.next?, temporary]
    | succ redirects =>
      cases follows : next? request traffic.network.answer <;>
        simp [Leg.next?, temporary, follows, followed_eq]

/-- What an exchange does: its plan is run, all requests arrive in order, and its end is logged. -/
theorem pursue_run (leg : Leg) (traffic : Traffic) :
    ∃ sent, Leg.plan.Run leg traffic.network sent (pursue leg traffic).1
        (pursue leg traffic).2.network ∧
      (pursue leg traffic).2.arrived = traffic.arrived ++ sent.map (·.1) ∧
      (pursue leg traffic).2.events = traffic.events ++ reported (pursue leg traffic).1 := by
  by_cases reached : traffic.network.Reaches leg.request
  · rw [pursue_of_reaches reached]
    cases follows : leg.next? traffic.network.answer with
    | none => exact ⟨_, .last reached follows, rfl, rfl⟩
    | some again =>
      -- What follows starts with the traffic after the delivery, and nothing is logged in between.
      obtain ⟨sent, run, arrived, events⟩ := pursue_run again (traffic.delivered leg.request)
      refine ⟨_, .next reached follows run, ?_, events⟩
      rw [arrived]
      simp [delivered, Leg.plan]
  · rw [pursue_of_not_reaches reached]
    exact ⟨[], .lost reached, (List.append_nil _).symm, rfl⟩
termination_by (leg.redirects, leg.repeats)
decreasing_by exact Leg.next?_decreases follows

/-- An exchange is a run of the plan: it gets the same result, sends the same requests and leaves
the same network. -/
theorem exchange_run (request : Request) (traffic : Traffic) :
    ∃ sent, Leg.plan.Run (.first request) traffic.network sent (traffic.exchange request).1
        (traffic.exchange request).2.network ∧
      (traffic.exchange request).2.arrived = traffic.arrived ++ sent.map (·.1) ∧
      (traffic.exchange request).2.events =
        traffic.events ++ reported (traffic.exchange request).1 := by
  rw [exchange, followed_eq]
  exact pursue_run (.first request) traffic

/-- No answers of the servers keep an exchange going: four attempts for the request itself and for
each of twenty redirects are the most. -/
theorem exchange_arrived_length_le (request : Request) (traffic : Traffic) :
    (traffic.exchange request).2.arrived.length ≤ traffic.arrived.length + 84 := by
  obtain ⟨sent, run, arrived, _⟩ := exchange_run request traffic
  have bound := Leg.length_le_of_run run
  simp only [Leg.first, repeatLimit, redirectLimit] at bound
  rw [arrived, List.length_append, List.length_map]
  omega

end Traffic

end WorkflowKit.Http
