import WorkflowKit.Proofs.GitHub.Endpoints
import WorkflowKit.Proofs.GitHub.Plan

namespace WorkflowKit.GitHub.Client

variable {access : Access} {client : Client} {call : Call}

theorem parts_of_make (made : make access = .ok client) :
    Http.Uri.parse access.address = .ok client.base ∧ client.repository = access.repository ∧
      client.token = access.token := by
  unfold make at made
  split at made
  · cases made
  · split at made
    · cases made
      exact ⟨‹_›, rfl, rfl⟩
    · cases made

/-- Below a server without a path a reference keeps its own path and query. -/
theorem target_place (root : client.base.path = "" ∨ client.base.path = "/") {reference : Http.Uri}
    (below : reference.authority = none) :
    (client.place reference).scheme = client.base.scheme ∧
      (client.place reference).authority = client.base.authority ∧
        (client.place reference).target = reference.target := by
  have none : Text.withoutTrailing '/' client.base.path = "" := by
    rcases root with same | same <;> rw [same] <;> decide
  have inside : client.place reference =
      ⟨client.base.scheme, client.base.authority, reference.path, reference.query⟩ := by
    simp [place, below, none]
  rw [inside]
  exact ⟨rfl, rfl, rfl⟩

theorem requestOf_of_fault (allowed : call.needsToken → client.token.isSome) {fault : Http.UriFault}
    (refused : Http.Uri.parse (call.route client.repository) = .error fault) :
    client.requestOf call = .error (.gitHub call.name (routeFault call fault)) := by
  have known : (call.needsToken && client.token.isNone) = false := by
    cases needs : call.needsToken <;> simp_all
  simp [requestOf, known, refused]

/-- A route beyond the limit of addresses is refused before anything is sent. -/
theorem requestOf_of_tooLong (allowed : call.needsToken → client.token.isSome)
    (long : Http.Uri.lengthLimit < (call.route client.repository).utf8ByteSize) :
    client.requestOf call = .error (.gitHub call.name (routeFault call .tooLong)) :=
  requestOf_of_fault allowed (Http.Uri.parse_of_tooLong long)

theorem requestOf_of_parse (allowed : call.needsToken → client.token.isSome)
    {reference : Http.Uri}
    (parsed : Http.Uri.parse (call.route client.repository) = .ok reference) :
    client.requestOf call = .ok (client.request call.method reference call.content?) := by
  have known : (call.needsToken && client.token.isNone) = false := by
    cases needs : call.needsToken <;> simp_all
  simp [requestOf, known, parsed]

theorem step_of_error {failure : Failure} (refused : client.requestOf call = .error failure)
    (network : Http.Network) (files : Files) :
    (client.step call network files).result = .error failure ∧
      (client.step call network files).requests = [] := by
  rw [step, perform_of_error refused]
  exact ⟨rfl, rfl⟩

/-- The first request of a call is the one that is made for it, if there is a server to get it. -/
theorem head?_requests {request : Http.Request} (made : client.requestOf call = .ok request)
    (network : Http.Network) (files : Files) :
    (client.step call network files).requests.head? =
      if network.Reaches request then some request else none := by
  obtain ⟨sent, result, after, run, arrived⟩ := perform_run made (.start network files)
  have requests : (client.step call network files).requests = sent.map (·.1) := arrived
  rw [requests, run.head?_sent]
  rfl

theorem requestOf_of_head? {request : Http.Request} {network : Http.Network} {files : Files}
    (first : (client.step call network files).requests.head? = some request) :
    client.requestOf call = .ok request := by
  cases made : client.requestOf call with
  | error failure =>
    rw [(step_of_error made network files).2] at first
    cases first
  | ok other =>
    rw [head?_requests made] at first
    split at first
    · exact congrArg Except.ok (Option.some.inj first)
    · cases first

theorem carries_octets {value : Json} {depth : Nat} (admitted : Json.Admitted depth value) :
    Carries value.octets value :=
  ⟨depth, value.chars, rfl, admitted.encodes⟩

/-- The request of a call is one that the endpoint of the call takes. -/
theorem takes_request {reference : Http.Uri} (integers : call.HasIntegers)
    (names : (call.endpoint access.repository).place.Names (client.place reference).target) :
    (call.endpoint access.repository).Takes (client.request call.method reference call.content?) := by
  refine ⟨call.method_eq access.repository, names, fun value content => ?_, fun content => ?_⟩
  · obtain ⟨depth, admitted⟩ := Call.admitted_content integers content
    rw [call.content?_eq access.repository, content]
    have carries := carries_octets admitted
    exact ⟨rfl, carries, fun other carries' => carries.unique carries'⟩
  · rw [call.content?_eq access.repository, content]
    exact ⟨rfl, rfl⟩

theorem requestOf_takes {scheme server : String} (made : make access = .ok client)
    (plain : Http.Uri.IsPlain access.address scheme server) (token : access.token.isSome)
    (named : access.repository.IsNamed) (integers : call.HasIntegers)
    (short : (call.route access.repository).utf8ByteSize ≤ Http.Uri.lengthLimit) :
    ∃ request, client.requestOf call = .ok request ∧ request.uri.scheme.isSome ∧
      request.uri.authority = some server ∧
        (call.endpoint access.repository).Takes request := by
  obtain ⟨base, repository, known⟩ := parts_of_make made
  obtain ⟨schemed, served, root⟩ := plain.base base
  have names := call.names_route access.repository
  have isRoute := names.isRoute (Call.parts_isPlace named call)
    (Call.parts_ne_nil access.repository call)
  obtain ⟨reference, parsed, below, _, target⟩ := isRoute.parse short
  obtain ⟨sameScheme, sameServer, sameTarget⟩ := target_place root below
  rw [← repository] at parsed
  refine ⟨_, requestOf_of_parse (fun _ => known ▸ token) parsed, ?_, sameServer.trans served, ?_⟩
  · exact sameScheme ▸ schemed
  · refine takes_request integers ?_
    rwa [sameTarget, target]

theorem short_of_requestOf {request : Http.Request} (token : client.token.isSome)
    (made : client.requestOf call = .ok request) :
    (call.route client.repository).utf8ByteSize ≤ Http.Uri.lengthLimit := by
  refine Nat.le_of_not_lt fun long => ?_
  rw [requestOf_of_tooLong (fun _ => token) long] at made
  cases made

/-- Requests with the same target and the same body come from the same call. -/
theorem asked_eq_of_takes {other : Call} {request request' : Http.Request}
    (named : access.repository.IsNamed) (same : other.name = call.name)
    (whole : call.name ≠ "delete_label") (takes : (call.endpoint access.repository).Takes request)
    (takes' : (other.endpoint access.repository).Takes request')
    (target : request'.uri.target = request.uri.target) (body : request'.body = request.body) :
    other.asked = call.asked := by
  have names := takes'.place
  rw [target] at names
  have place := takes.place.unique names (Call.parts_isPlace named call)
    (Call.parts_isPlace named other) (Call.ne_below whole) (Call.ne_below (same ▸ whole))
  have content := takes.content_unique takes' body
  rw [← Call.content?_eq, ← Call.content?_eq] at content
  exact Call.asked_eq_of_endpoint same whole place content

/-- Of a client with a token at a plain address the first request of a call goes to the server, is what
the endpoint of the call expects, and tells the call from all others of its kind. Only a call with
too long a route is refused, and sends nothing. -/
theorem step_addressed {scheme server : String} (made : make access = .ok client)
    (plain : Http.Uri.IsPlain access.address scheme server) (token : access.token.isSome)
    (named : access.repository.IsNamed) (integers : call.HasIntegers) :
    ((call.route access.repository).utf8ByteSize ≤ Http.Uri.lengthLimit →
      ∃ request : Http.Request,
        (∀ network files, (client.step call network files).requests.head? =
          if network.Reaches request then some request else none) ∧
        request.uri.scheme.isSome ∧ request.uri.authority = some server ∧
        (call.endpoint access.repository).Takes request ∧
        ∀ other : Call, other.HasIntegers → other.name = call.name → call.name ≠ "delete_label" →
          ∀ network files request',
            (client.step other network files).requests.head? = some request' →
            request'.uri.target = request.uri.target → request'.body = request.body →
              other.asked = call.asked) ∧
    (Http.Uri.lengthLimit < (call.route access.repository).utf8ByteSize →
      ∀ network files,
        (client.step call network files).result =
          .error (.gitHub call.name (routeFault call .tooLong)) ∧
        (client.step call network files).requests = []) := by
  obtain ⟨_, repository, known⟩ := parts_of_make made
  have token' : client.token.isSome := known ▸ token
  refine ⟨fun short => ?_, fun long network files => ?_⟩
  · obtain ⟨request, requested, schemed, served, takes⟩ :=
      requestOf_takes made plain token named integers short
    refine ⟨request, head?_requests requested, schemed, served, takes, ?_⟩
    -- Two calls of one kind with the same request have the same endpoint, and this tells what was
    -- asked.
    intro other integers' same whole network files request' first target body
    have requested' := requestOf_of_head? first
    have short' := short_of_requestOf token' requested'
    rw [repository] at short'
    obtain ⟨_, again, _, _, takes'⟩ := requestOf_takes made plain token named integers' short'
    obtain rfl := Except.ok.inj (requested'.symm.trans again)
    exact asked_eq_of_takes named same whole takes takes' target body
  · rw [← repository] at long
    exact step_of_error (requestOf_of_tooLong (fun _ => token') long) network files

theorem isPlain_usualAddress : Http.Uri.IsPlain usualAddress "https" "api.github.com" where
  text := Or.inl (by decide)
  named := by decide
  scheme := List.all_iff_forall_prop.mp (by decide)
  server := List.all_iff_forall_prop.mp (by decide)

theorem isNamed_usualRepository : usualRepository.IsNamed where
  owner := List.all_iff_forall_prop.mp (by decide)
  name := List.all_iff_forall_prop.mp (by decide)

theorem step_addressed_createIssue :
    let network : Http.Network := ⟨["api.github.com"], [⟨201, [], Octets.ofText "\x7b\x7d"⟩]⟩
    ∃ request, ((usual (some "tok")).step (.createIssue "T" "l") network .empty).requests.head? =
        some request ∧
      request.method = .post ∧ request.uri.target = "/repos/firebase/firebase-cpp-sdk/issues" ∧
      Carries request.body (.ofMembers [("title", .text "T"), ("labels", .array [.text "l"])]) := by
  intro network
  have short : ((Call.createIssue "T" "l").route usualRepository).utf8ByteSize ≤
      Http.Uri.lengthLimit := by decide
  obtain ⟨addressed, _⟩ := @step_addressed ⟨usualAddress, usualRepository, some "tok"⟩ _
    (.createIssue "T" "l") _ _ (make_usual (by decide)) isPlain_usualAddress rfl
    isNamed_usualRepository trivial
  obtain ⟨request, first, schemed, served, takes, _⟩ := addressed short
  have reaches : network.Reaches request := ⟨schemed, _, List.mem_singleton_self _, served⟩
  refine ⟨request, ?_, takes.method, takes.place, (takes.content _ rfl).2.1⟩
  rw [first, if_pos reaches]

/-- The route of a search is not shorter than the label. -/
theorem length_label_le (label : String) (repository : Repository) :
    label.toList.length ≤ ((Call.searchIssues label).route repository).utf8ByteSize := by
  have searched : label.toList.length ≤ (Call.searchText repository label).toList.length := by
    rw [Call.searchText_eq]
    simp only [String.toList_append, List.length_append]
    omega
  have octets := Octets.length_le_length_ofChars (Call.searchText repository label).toList
  have escaped := Text.length_le_formValue (Call.searchText repository label)
  have routed := Octets.length_le_length_ofChars ((Call.searchIssues label).route repository).toList
  calc label.toList.length
      ≤ (Text.formValue (Call.searchText repository label)).toList.length :=
        (searched.trans octets).trans escaped
    _ ≤ ((Call.searchIssues label).route repository).toList.length := by
        simp only [Call.route_searchIssues, String.toList_append, List.length_append]
        omega
    _ ≤ ((Call.searchIssues label).route repository).utf8ByteSize :=
        routed.trans_eq (Octets.length_ofText _)

/-- The issues with a label that is longer than an address can be are not asked for. -/
theorem searchIssues_sends_nothing :
    make ⟨usualAddress, usualRepository, some "tok"⟩ = .ok (usual (some "tok")) ∧
      Http.Uri.IsPlain usualAddress "https" "api.github.com" ∧ usualRepository.IsNamed ∧
        ∀ network files, ((usual (some "tok")).step
          (.searchIssues (String.ofList (List.replicate 65600 'a'))) network files).requests = [] := by
  refine ⟨make_usual (by decide), isPlain_usualAddress, isNamed_usualRepository, ?_⟩
  intro network files
  have long := length_label_le (String.ofList (List.replicate 65600 'a')) usualRepository
  rw [String.toList_ofList, List.length_replicate] at long
  have limit : Http.Uri.lengthLimit < 65600 := by decide
  exact (step_of_error (requestOf_of_tooLong (fun _ => rfl) (limit.trans_le long)) network files).2

end WorkflowKit.GitHub.Client
