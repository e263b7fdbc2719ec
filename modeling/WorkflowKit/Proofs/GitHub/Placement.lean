import WorkflowKit.Proofs.GitHub.Addressing

namespace WorkflowKit.GitHub.Client

variable {client : Client} {call : Call}

/-- The path below which the routes of calls lie. -/
def root (client : Client) : String :=
  Text.withoutTrailing '/' client.base.path

/-- At a plain address the routes lie at the server itself. -/
theorem root_of_isPlain {access : Access} (made : make access = .ok client) {scheme server : String}
    (plain : Http.Uri.IsPlain access.address scheme server) : client.root = "" := by
  obtain ⟨_, _, empty | slash⟩ := plain.base (parts_of_make made).1
  · rw [root, empty]
    decide
  · rw [root, slash]
    decide

/-- The address of a path and a query below the root. -/
def addressOf (client : Client) (parts : List String) (query : Option String) : Http.Uri :=
  ⟨client.base.scheme, client.base.authority, client.root ++ Http.Uri.pathText parts, query⟩

theorem place_reference (client : Client) (parts : List String) (query : Option String) :
    client.place ⟨none, none, Http.Uri.pathText parts, query⟩ = client.addressOf parts query := rfl

/-- The route comes after the path of the client, and the query after both. -/
theorem target_addressOf {parts : List String} (visible : Http.Uri.pathText parts ≠ "")
    (query : Option String) :
    (client.addressOf parts query).target =
      client.root ++ Http.Uri.pathText parts ++ (query.map ("?" ++ ·)).getD "" := by
  have filled : client.root ++ Http.Uri.pathText parts ≠ "" := fun empty =>
    visible (String.append_eq_empty_iff.mp empty).2
  simp [addressOf, Http.Uri.target, filled]

theorem isPathChar_of_mem_root {access : Access} (made : make access = .ok client) :
    ∀ c ∈ client.root.toList, Http.Uri.isPathChar c := by
  intro c member
  rw [root, Text.withoutTrailing, String.toList_ofList, List.mem_reverse] at member
  have inside := (List.dropWhile_sublist _).mem member
  exact Http.Uri.isPathChar_of_parse (parts_of_make made).1 c (List.mem_reverse.mp inside)

/-- The target of a path below the root has no query. -/
theorem question_not_mem_target {access : Access} (made : make access = .ok client)
    {parts : List String} (places : ∀ part ∈ parts, Http.Uri.IsPlace part)
    (visible : Http.Uri.pathText parts ≠ "") :
    '?' ∉ (client.addressOf parts none).target.toList := by
  rw [target_addressOf visible none]
  simp only [Option.map_none, Option.getD_none, String.append_empty, String.toList_append,
    List.mem_append, not_or]
  refine ⟨fun member => ?_, Http.Uri.question_not_mem_pathText places⟩
  exact absurd (isPathChar_of_mem_root made '?' member) (by decide)

/-- The places of a path below the root can be told from its address. -/
theorem addressOf_inj {parts others : List String} {query query' : Option String}
    (places : ∀ part ∈ parts, Http.Uri.IsPlace part)
    (places' : ∀ part ∈ others, Http.Uri.IsPlace part)
    (same : client.addressOf parts query = client.addressOf others query') :
    parts = others ∧ query = query' := by
  simp only [addressOf, Http.Uri.mk.injEq, true_and] at same
  obtain ⟨path, query⟩ := same
  exact ⟨Http.Uri.pathText_inj places places' ((String.append_right_inj _).mp path), query⟩

/-- A plain route that is not too long is asked for below the address of the client. -/
theorem requestOf_of_path (allowed : call.needsToken → client.token.isSome) {parts : List String}
    (route : call.route client.repository = Http.Uri.pathText parts) (nonempty : parts ≠ [])
    (places : ∀ part ∈ parts, Http.Uri.IsPlace part)
    (short : (call.route client.repository).utf8ByteSize ≤ Http.Uri.lengthLimit) :
    client.requestOf call =
      .ok (client.request call.method ⟨none, none, Http.Uri.pathText parts, none⟩ call.content?) := by
  rw [route] at short
  refine requestOf_of_parse allowed ?_
  rw [route]
  exact (Http.Uri.parse_pathText nonempty places short).1

theorem requestOf_of_query (allowed : call.needsToken → client.token.isSome) {parts : List String}
    {query : String} (route : call.route client.repository = Http.Uri.pathText parts ++ "?" ++ query)
    (nonempty : parts ≠ []) (places : ∀ part ∈ parts, Http.Uri.IsPlace part)
    (plain : ∀ c ∈ query.toList, Http.Uri.isQueryChar c ∧ c ≠ '#')
    (short : (call.route client.repository).utf8ByteSize ≤ Http.Uri.lengthLimit) :
    client.requestOf call =
      .ok (client.request call.method ⟨none, none, Http.Uri.pathText parts, some query⟩
        call.content?) := by
  rw [route] at short
  refine requestOf_of_parse allowed ?_
  rw [route]
  exact (Http.Uri.parse_pathText_query nonempty places plain short).1

/-- A call whose request gets to no server fails, and nothing is sent. -/
theorem step_of_not_reaches {request : Http.Request} (made : client.requestOf call = .ok request)
    {network : Http.Network} (lost : ¬ network.Reaches request) (files : Files) :
    (client.step call network files).result =
        .error (.gitHub call.name (.transport request.fault)) ∧
      (client.step call network files).requests = [] := by
  obtain ⟨sent, after, _, arrived, ⟨fault, exchanged, run⟩ | ⟨response, exchanged, run⟩⟩ :=
    exchange_cases call (.start network files) request
  · have done : client.perform call (.start network files) =
        (.error (.gitHub call.name (.transport fault)), after) := by
      simp only [perform, made, exchanged]
    cases run with
    | lost _ =>
      rw [step, done]
      exact ⟨rfl, arrived⟩
    | next reached => exact absurd reached lost
  · generalize after.traffic.network = left at run
    cases run with
    | last reached => exact absurd reached lost
    | next reached => exact absurd reached lost

/-- The first request of a call is the one that is made of it, or nothing is sent. -/
theorem step_sends {request : Http.Request} (made : client.requestOf call = .ok request)
    (network : Http.Network) (files : Files) :
    let step := client.step call network files
    step.requests.head? = some request ∧ network.Reaches request ∨
      (∃ failure, step.result = .error failure) ∧ step.requests = [] ∧
        ¬ network.Reaches request := by
  intro step
  by_cases reaches : network.Reaches request
  · have first := head?_requests made network files
    rw [if_pos reaches] at first
    exact Or.inl ⟨first, reaches⟩
  · obtain ⟨failed, nothing⟩ := step_of_not_reaches made reaches files
    exact Or.inr ⟨⟨_, failed⟩, nothing, reaches⟩

end WorkflowKit.GitHub.Client
