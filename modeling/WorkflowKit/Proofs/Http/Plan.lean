import WorkflowKit.Http.Exchange

namespace WorkflowKit.Http

namespace Network

/-- The response to the next request that arrives. -/
def answer (network : Network) : Response := network.answers.head?.getD .empty

/-- The network after a request has arrived. -/
def advanced (network : Network) : Network :=
  { network with
    answers := if network.answers.length ≤ 1 then network.answers else network.answers.drop 1 }

/-- Holds of a request that gets to one of the servers. -/
def Reaches (network : Network) (request : Request) : Prop :=
  request.uri.scheme.isSome ∧
    ∃ authority ∈ network.servers, request.uri.authority = some authority

instance (network : Network) (request : Request) : Decidable (network.Reaches request) := by
  unfold Reaches
  infer_instance

@[simp]
theorem reaches_advanced (network : Network) : network.advanced.Reaches = network.Reaches := rfl

/-- Requests that arrive one after another, each with the response that it gets. -/
def answered (network : Network) : List Request → List (Request × Response)
  | [] => []
  | request :: requests => (request, network.answer) :: network.advanced.answered requests

end Network

/-- Why a request gets no response if it gets to no server. -/
def Request.fault (request : Request) : TransportFault :=
  match request.uri.scheme, request.uri.authority with
  | some _, some _ => .noConnection
  | none, some _ => .breakdown
  | _, none => .noServer

namespace Traffic

/-- The traffic after a request has arrived. -/
def delivered (request : Request) (traffic : Traffic) : Traffic :=
  { traffic with network := traffic.network.advanced, arrived := traffic.arrived ++ [request] }

theorem sendOnce_of_reaches {request : Request} {traffic : Traffic}
    (reaches : traffic.network.Reaches request) :
    traffic.sendOnce request = (.ok traffic.network.answer, traffic.delivered request) := by
  obtain ⟨scheme, authority, member, named⟩ := reaches
  obtain ⟨scheme, same⟩ := Option.isSome_iff_exists.mp scheme
  simp [sendOnce, same, named, member, delivered, Network.answer, Network.advanced]

theorem sendOnce_of_not_reaches {request : Request} {traffic : Traffic}
    (lost : ¬ traffic.network.Reaches request) :
    traffic.sendOnce request = (.error request.fault, traffic) := by
  unfold sendOnce Request.fault
  cases scheme : request.uri.scheme with
  | none => cases request.uri.authority <;> rfl
  | some name =>
    cases authority : request.uri.authority with
    | none => rfl
    | some server =>
      have unknown : server ∉ traffic.network.servers := fun member =>
        lost ⟨by simp [scheme], server, member, authority⟩
      simp [unknown]

end Traffic

/-- A plan for requests: at each of its stages one is sent, and the response decides which stage
follows, if any. -/
structure Plan (σ : Type) where
  request : σ → Request
  next? : σ → Response → Option σ

namespace Plan

variable {σ : Type} {plan : Plan σ}

/-- From a stage on, a network gets some requests and gives some responses to them, up to the last
response or to a request that gets to no server. -/
inductive Run (plan : Plan σ) : σ → Network → List (Request × Response) →
    Except TransportFault Response → Network → Prop
  | lost {stage network} : ¬ network.Reaches (plan.request stage) →
      Run plan stage network [] (.error (plan.request stage).fault) network
  | last {stage network} : network.Reaches (plan.request stage) →
      plan.next? stage network.answer = none →
      Run plan stage network [(plan.request stage, network.answer)] (.ok network.answer)
        network.advanced
  | next {stage again network sent result after} : network.Reaches (plan.request stage) →
      plan.next? stage network.answer = some again →
      Run plan again network.advanced sent result after →
      Run plan stage network ((plan.request stage, network.answer) :: sent) result after

/-- Holds if `n` further requests follow that of a stage, and all get to a server. -/
def Reaches (plan : Plan σ) : Nat → σ → Network → Prop
  | 0, stage, network => network.Reaches (plan.request stage)
  | n + 1, stage, network => network.Reaches (plan.request stage) ∧
      ∃ again, plan.next? stage network.answer = some again ∧ plan.Reaches n again network.advanced

namespace Run

variable {stage : σ} {network after : Network} {sent : List (Request × Response)}
  {result : Except TransportFault Response}

/-- How many requests a run has is told by how far its plan reaches in the network. -/
theorem lt_length_iff (run : plan.Run stage network sent result after) (n : Nat) :
    n < sent.length ↔ plan.Reaches n stage network := by
  induction run generalizing n with
  | lost unreached =>
    cases n with
    | zero => simpa [Reaches] using unreached
    | succ n => simp [Reaches, unreached]
  | last reached stop =>
    cases n with
    | zero => simpa [Reaches] using reached
    | succ n => simp [Reaches, stop]
  | next reached follows _ ih =>
    cases n with
    | zero => simpa [Reaches] using reached
    | succ n => simp [Reaches, reached, follows, ih]

/-- A run has one request exactly if this one arrives and no other that follows it does. -/
theorem length_eq_one_iff (run : plan.Run stage network sent result after) :
    sent.length = 1 ↔ network.Reaches (plan.request stage) ∧
      ∀ again, plan.next? stage network.answer = some again →
        ¬ network.Reaches (plan.request again) := by
  have one := run.lt_length_iff 0
  have two := run.lt_length_iff 1
  simp only [Reaches, Network.reaches_advanced] at one two
  constructor
  · intro length
    have reached := one.mp (by omega)
    refine ⟨reached, fun again follows reached' => ?_⟩
    have more := two.mpr ⟨reached, again, follows, reached'⟩
    omega
  · rintro ⟨reached, stops⟩
    have some := one.mpr reached
    have few : ¬ 1 < sent.length := by
      rw [two]
      rintro ⟨_, again, follows, reached'⟩
      exact stops again follows reached'
    omega

theorem length_le_two_iff (run : plan.Run stage network sent result after) :
    sent.length ≤ 2 ↔ ∀ again third, network.Reaches (plan.request stage) →
      plan.next? stage network.answer = some again → network.Reaches (plan.request again) →
      plan.next? again network.advanced.answer = some third →
      ¬ network.Reaches (plan.request third) := by
  have three := run.lt_length_iff 2
  simp only [Reaches, Network.reaches_advanced] at three
  rw [← Nat.not_lt, three]
  constructor
  · intro few again third reached follows reached' follows' reached''
    exact few ⟨reached, again, follows, reached', third, follows', reached''⟩
  · rintro stops ⟨reached, again, follows, reached', third, follows', reached''⟩
    exact stops again third reached follows reached' follows' reached''

/-- The requests of a run are answered as the network is asked, and so are those that follow it. -/
theorem answered_append (run : plan.Run stage network sent result after) (others : List Request) :
    network.answered (sent.map (·.1) ++ others) = sent ++ after.answered others := by
  induction run with
  | lost => rfl
  | last => rfl
  | next _ _ _ ih => rw [List.map_cons, List.cons_append, Network.answered, ih, List.cons_append]

/-- What is sent and what is answered tell each other: the network answers request by request. -/
theorem answered (run : plan.Run stage network sent result after) :
    network.answered (sent.map (·.1)) = sent := by
  simpa [Network.answered] using run.answered_append []

/-- The response that ends a run is that to its last request. -/
theorem getLast?_of_ok {response : Response}
    (run : plan.Run stage network sent (.ok response) after) :
    ∃ request, sent.getLast? = some (request, response) := by
  generalize ended : Except.ok response = result at run
  induction run with
  | lost => cases ended
  | last =>
    cases ended
    exact ⟨_, rfl⟩
  | next _ _ _ ih =>
    obtain ⟨request, last⟩ := ih ended
    exact ⟨request, by rw [List.getLast?_cons, last]; rfl⟩

/-- The first request of a run is that of the stage at which it starts, if it gets to a server. -/
theorem head?_sent (run : plan.Run stage network sent result after) :
    (sent.map (·.1)).head? =
      if network.Reaches (plan.request stage) then some (plan.request stage) else none := by
  cases run with
  | lost unreached => exact (if_neg unreached).symm
  | last reached => exact (if_pos reached).symm
  | next reached => exact (if_pos reached).symm

/-- What each request hands on to the one that follows it holds of all requests of a run. -/
theorem forall_sent (Holds : Request → Prop)
    (step : ∀ {stage response again}, Holds (plan.request stage) →
      plan.next? stage response = some again → Holds (plan.request again))
    (run : plan.Run stage network sent result after) (start : Holds (plan.request stage)) :
    ∀ delivery ∈ sent, Holds delivery.1 := by
  induction run with
  | lost => exact List.forall_mem_nil _
  | last => exact List.forall_mem_singleton.mpr start
  | next _ follows _ ih => exact List.forall_mem_cons.mpr ⟨start, ih (step start follows)⟩

end Run

end Plan

end WorkflowKit.Http
