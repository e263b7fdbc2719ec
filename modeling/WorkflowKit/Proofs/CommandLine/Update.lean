import WorkflowKit.Proofs.CommandLine.Payload
import WorkflowKit.Proofs.GitHub.Anonymous
import WorkflowKit.Proofs.GitHub.Placement
import WorkflowKit.Proofs.Json.Rounding

namespace WorkflowKit.CommandLine

/-- Holds of a run that fails with a message and does nothing else. -/
structure Completion.Refuses (done : Completion) (message : String) : Prop where
  status : done.status = 1
  stdout : done.stdout = []
  told : done.told = [message]
  arrived : done.arrived = []

variable {surroundings : Surroundings} {arguments : List String} {access : GitHub.Access}
  {client : GitHub.Client} {operation : Operation} {call : GitHub.Call}

theorem program_of_input {fault : InputFault}
    (accepted : Command.read surroundings.environment arguments = .ok (.gitHub access operation))
    (made : GitHub.Client.make access = .ok client)
    (faulty : operation.toCall = .error (.input fault)) :
    (program surroundings arguments).Refuses ("invalid input: " ++ fault.message) := by
  have run : (Command.gitHub access operation).run surroundings =
      ⟨[], [], some (.input fault), [], [], surroundings.workplace.files⟩ := by
    simp [Command.run, runGitHub, made, faulty, bind, Except.bind]
  constructor <;> simp only [program, accepted, run] <;> rfl

/-- What comes of an operation is what comes of its call. -/
theorem run_of_toCall (surroundings : Surroundings) (made : GitHub.Client.make access = .ok client)
    (asks : operation.toCall = .ok call) :
    let step := client.step call surroundings.network surroundings.workplace.files
    ∃ printed failure, (Command.gitHub access operation).run surroundings =
        ⟨printed, step.events.map .event, failure, [], step.requests, step.files⟩ ∧
      ∀ fault, step.result = .error fault → printed = [] ∧ failure = some fault := by
  intro step
  simp only [Command.run, runGitHub, made, asks, bind, Except.bind, pure, Except.pure]
  split
  · rename_i fault failed
    refine ⟨[], some fault, rfl, fun other failed' => ⟨rfl, ?_⟩⟩
    rw [Except.error.inj (failed.symm.trans failed')]
  · rename_i outcome done
    refine ⟨_, _, rfl, fun other failed => ?_⟩
    cases done.symm.trans failed

/-- A call that needs a token is refused without one. -/
theorem program_of_no_token
    (accepted : Command.read surroundings.environment arguments = .ok (.gitHub access operation))
    (made : GitHub.Client.make access = .ok client) (asks : operation.toCall = .ok call)
    (anonymous : access.token = none) (bound : call.needsToken = true) :
    (program surroundings arguments).Refuses (call.name ++ " requires a GitHub token") := by
  obtain ⟨printed, failure, run, failed⟩ := run_of_toCall surroundings made asks
  obtain ⟨_, _, known⟩ := GitHub.Client.parts_of_make made
  have refused := GitHub.Client.perform_refused (known.trans anonymous) bound
    (.start surroundings.network surroundings.workplace.files)
  rw [GitHub.Client.step, refused] at run failed
  obtain ⟨rfl, rfl⟩ := failed _ rfl
  constructor <;> simp only [program, accepted, run] <;> rfl

/-- A call of which no request can be made sends nothing. -/
theorem program_of_fault {name : String} {fault : GitHub.Fault}
    (accepted : Command.read surroundings.environment arguments = .ok (.gitHub access operation))
    (made : GitHub.Client.make access = .ok client) (asks : operation.toCall = .ok call)
    (refused : client.requestOf call = .error (.gitHub name fault)) :
    (program surroundings arguments).status = 1 ∧ (program surroundings arguments).arrived = [] := by
  obtain ⟨printed, failure, run, failed⟩ := run_of_toCall surroundings made asks
  obtain ⟨ended, nothing⟩ :=
    GitHub.Client.step_of_error refused surroundings.network surroundings.workplace.files
  obtain ⟨_, rfl⟩ := failed _ ended
  constructor
  · simp only [program, accepted, run]
    rfl
  · simp only [program, accepted, run, nothing]

/-- A call with an address sends its request first, if it gets to a server. -/
theorem program_of_request {request : Http.Request}
    (accepted : Command.read surroundings.environment arguments = .ok (.gitHub access operation))
    (made : GitHub.Client.make access = .ok client) (asks : operation.toCall = .ok call)
    (requested : client.requestOf call = .ok request) :
    let done := program surroundings arguments
    done.arrived.head? = some request ∧ surroundings.network.Reaches request ∨
      done.status = 1 ∧ done.arrived = [] ∧ ¬ surroundings.network.Reaches request := by
  intro done
  obtain ⟨printed, failure, run, failed⟩ := run_of_toCall surroundings made asks
  have arrived : done.arrived =
      (client.step call surroundings.network surroundings.workplace.files).requests := by
    simp only [done, program, accepted, run]
  by_cases reaches : surroundings.network.Reaches request
  · have first := GitHub.Client.head?_requests requested surroundings.network
      surroundings.workplace.files
    rw [if_pos reaches, ← arrived] at first
    exact Or.inl ⟨first, reaches⟩
  · obtain ⟨lost, nothing⟩ :=
      GitHub.Client.step_of_not_reaches requested reaches surroundings.workplace.files
    obtain ⟨_, rfl⟩ := failed _ lost
    exact Or.inr ⟨by simp only [done, program, accepted, run]; rfl, arrived.trans nothing, reaches⟩

/-- Data that is no JSON object is refused, with a text that says what it must be. -/
theorem toCall_of_not_object (issue : Nat) {data : String}
    (other : ∀ members, ¬ Json.IsText data.toList (.object members)) :
    ∃ fault detail, (Operation.update issue data).toCall = .error (.input fault) ∧
      fault.message = "--data must be a JSON object" ++ detail := by
  cases read : Json.read (Octets.ofText data) with
  | error error =>
    refine ⟨.malformedData error, ": " ++ error.message, by rw [Operation.toCall, read], ?_⟩
    rw [← String.append_assoc]
    rfl
  | ok value =>
    refine ⟨.dataNotObject, "", ?_, rfl⟩
    rw [Operation.toCall, read]
    cases value with
    | object members => exact absurd (Json.read_eq_ok_iff.mp read) (other members)
    | _ => rfl

/-- Data that is an object is sent as the value for which it stands. -/
theorem toCall_of_object (issue : Nat) {data : String} {members : List (String × Json)}
    (isText : Json.IsText data.toList (.object members)) :
    (Operation.update issue data).toCall = .ok (.updateIssue issue (.object members)) := by
  rw [Operation.toCall, Json.read_eq_ok_iff.mpr isText]

theorem route_issue (repository : GitHub.Repository) (issue : Nat) :
    repository.route ("/issues/" ++ toString issue) =
      Http.Uri.pathText ["repos", repository.owner, repository.name, "issues", toString issue] := by
  refine String.toList_inj.mp ?_
  simp [GitHub.Repository.route, GitHub.Repository.text, Http.Uri.toList_pathText, toString]

/-- The data of a change must be one JSON object, before anything else is asked. Then a token must be
there. Then the first request changes the issue, and its text stands for the object and for nothing
else. -/
theorem program_update {issue : Nat} {data : String}
    (accepted : Command.read surroundings.environment arguments =
      .ok (.gitHub access (.update issue data)))
    (made : GitHub.Client.make access = .ok client) :
    let done := program surroundings arguments
    let route := access.repository.route ("/issues/" ++ toString issue)
    ((∀ members, ¬ Json.IsText data.toList (.object members)) →
      ∃ detail, done.Refuses ("invalid input: --data must be a JSON object" ++ detail)) ∧
    ∀ members, Json.IsText data.toList (.object members) →
      (access.token = none → done.Refuses "update_issue requires a GitHub token") ∧
      (access.token.isSome →
        (∀ fault, Http.Uri.parse route = .error fault → done.status = 1 ∧ done.arrived = []) ∧
        (access.repository.IsNamed → route.utf8ByteSize ≤ Http.Uri.lengthLimit →
          ∃ reference, Http.Uri.parse route = .ok reference ∧ client.place reference =
            client.addressOf ["repos", access.repository.owner, access.repository.name, "issues",
              toString issue] none) ∧
        ∀ reference, Http.Uri.parse route = .ok reference →
          ∃ (request : Http.Request) (text : List Char),
            (done.arrived.head? = some request ∧ surroundings.network.Reaches request ∨
              done.status = 1 ∧ done.arrived = [] ∧ ¬ surroundings.network.Reaches request) ∧
            request.method = .patch ∧ request.uri = client.place reference ∧
            request.body = Octets.ofChars text ∧
            (∀ value, Json.StandsFor text value ↔ value = .object members) ∧
            ∀ depth < Json.usualDepth, Json.Encodes depth data.toList (.object members) →
              Json.read request.body = .ok (.object members)) := by
  intro done route
  obtain ⟨_, repository, token'⟩ := GitHub.Client.parts_of_make made
  refine ⟨fun other => ?_, fun members isText => ?_⟩
  · obtain ⟨fault, detail, faulty, message⟩ := toCall_of_not_object issue other
    have refused := program_of_input accepted made faulty
    rw [message, ← String.append_assoc] at refused
    exact ⟨detail, refused⟩
  -- From here on the data is an object, so what is left depends on the token and the route.
  have asks := toCall_of_object issue isText
  refine ⟨fun anonymous => program_of_no_token accepted made asks anonymous rfl, fun token => ?_⟩
  have known : client.token.isSome := token' ▸ token
  refine ⟨?_, ?_, ?_⟩
  · intro fault noAddress
    have refused : Http.Uri.parse ((GitHub.Call.updateIssue issue (.object members)).route
        client.repository) = .error fault := by
      rwa [repository]
    exact program_of_fault accepted made asks
      (GitHub.Client.requestOf_of_fault (fun _ => known) refused)
  · intro named short
    have places := GitHub.Call.parts_isPlace named (.openIssue issue)
    have text : route = _ := route_issue access.repository issue
    rw [text] at short ⊢
    exact ⟨_, (Http.Uri.parse_pathText (List.cons_ne_nil _ _) places short).1,
      client.place_reference _ none⟩
  · intro reference parsed
    have requested : client.requestOf (.updateIssue issue (.object members)) =
        .ok (client.request .patch reference (some (.object members))) :=
      GitHub.Client.requestOf_of_parse (fun _ => known) (by rwa [repository])
    refine ⟨_, _, program_of_request accepted made asks requested, rfl, rfl, rfl,
      isText.standsFor_iff, fun depth shallow encodes => ?_⟩
    exact encodes.admitted.read_octets shallow

/-- A repeated member keeps its last value, and a large integer stays as it is. -/
theorem program_update_repeated :
    let data := "\x7b\"number\": 7,\"number\": 18446744073709551615\x7d"
    let members : List (String × Json) := [("number", .number (.integer 18446744073709551615))]
    let network : Http.Network := ⟨["api.github.com"], [⟨200, [], Octets.ofText "\x7b\x7d"⟩]⟩
    let done := program ⟨[], ⟨none, .empty⟩, network⟩
      ["github", "--token", "t", "update-issue", "--issue", "5", "--data", data]
    ∃ request text, done.arrived.head? = some request ∧ request.method = .patch ∧
      request.uri.target = "/repos/firebase/firebase-cpp-sdk/issues/5" ∧
      request.body = Octets.ofChars text ∧
      (∀ value, Json.StandsFor text value ↔ value = .object members) ∧
      Json.read request.body = .ok (.object members) := by
  intro data members network done
  have space : Json.Blanks [' '] := by simp [Json.Blanks]
  have noBlanks : Json.Blanks [] := List.forall_mem_nil _
  let member (ds : List Char) : Json.Member :=
    ⟨[], Json.quotedChars "number".toList, [], ' ' :: ds, "number",
      .number (.integer (Text.digitsValue ds))⟩
  have named (ds : List Char) : (member ds).IsNamed :=
    ⟨noBlanks, Json.quotes_quotedChars "number", noBlanks⟩
  have number (ds : List Char) (whole : Json.Whole ds) (fits : Text.digitsValue ds < 2 ^ 64) :
      Json.Encodes 0 (member ds).text (member ds).value := by
    simpa using Json.Encodes.blanks space (.natural whole fits) noBlanks
  have text : data.toList = Json.bracketed '\x7b' '\x7d'
      ([member ['7'], member "18446744073709551615".toList].map Json.Member.chars) := by
    decide
  have last : Json.object members = .ofMembers
      ([member ['7'], member "18446744073709551615".toList].map fun m => (m.name, m.value)) :=
    (Json.ofMembers_repeated _ _ _).symm
  have encodes : Json.Encodes 1 data.toList (.object members) := by
    rw [text, last]
    refine .object _ (List.cons_ne_nil _ _) (by simp [named]) ?_
    simp only [List.forall_mem_cons]
    exact ⟨number _ ⟨⟨by decide, by simp⟩, by decide⟩ (by decide),
      number _ ⟨⟨by decide, by simp⟩, by decide⟩ (by decide), List.forall_mem_nil _⟩
  have isText : Json.IsText data.toList (.object members) :=
    Json.read_eq_ok_iff.mp (encodes.read (by decide))
  have accepted : Command.read []
      ["github", "--token", "t", "update-issue", "--issue", "5", "--data", data] =
      .ok (.gitHub ⟨GitHub.usualAddress, GitHub.usualRepository, some "t"⟩ (.update 5 data)) := by
    simp only [data]
    rfl
  have all := @program_update ⟨[], ⟨none, .empty⟩, network⟩ _ _ _ _ _ accepted
    (GitHub.Client.make_usual rfl)
  obtain ⟨_, named, sends⟩ := (all.2 members isText).2 rfl
  obtain ⟨reference, parsed, place⟩ := named GitHub.Client.isNamed_usualRepository (by decide)
  obtain ⟨request, text, sent, patch, uri, body, stands, read⟩ := sends reference parsed
  rw [place] at uri
  have reaches : network.Reaches request :=
    ⟨uri ▸ rfl, "api.github.com", List.mem_singleton_self _, uri ▸ rfl⟩
  rcases sent with ⟨first, _⟩ | ⟨_, _, lost⟩
  · exact ⟨request, text, first, patch, by rw [uri]; decide +kernel, body, stands,
      read 1 (by decide) encodes⟩
  · exact absurd reaches lost

/-- The value of a small number is not the nearest one, so that the text that is sent is read as another
value; and a number may be too large to be read. -/
theorem program_update_numbers :
    let network : Http.Network := ⟨["api.github.com"], [⟨200, [], Octets.ofText "\x7b\x7d"⟩]⟩
    let update (data : String) := program ⟨[], ⟨none, .empty⟩, network⟩
      ["github", "--token", "t", "update-issue", "--issue", "5", "--data", data]
    let small := "\x7b\"x\": 1e-24\x7d"
    (∃ request, (update small).arrived.head? = some request ∧ request.method = .patch ∧
        ∃ value other, Json.read (Octets.ofText small) = .ok value ∧
          Json.read request.body = .ok other ∧ other ≠ value) ∧
      (update "\x7b\"x\": 1e999\x7d").Refuses
        "invalid input: --data must be a JSON object: number out of range at line 1 column 11" := by
  intro network update small
  have sent : (update small).arrived.head?.map
      (fun request => (request.method, (Json.read request.body).toOption.map Json.octets)) =
      some (.patch, some (Octets.ofText "\x7b\"x\":1e-24\x7d")) := by
    decide +kernel
  have given : (Json.read (Octets.ofText small)).toOption.map Json.octets =
      some (Octets.ofText "\x7b\"x\":1.0000000000000001e-24\x7d") := by
    decide +kernel
  refine ⟨?_, by constructor <;> decide +kernel⟩
  obtain ⟨request, first, told⟩ := Option.map_eq_some_iff.mp sent
  obtain ⟨patch, read⟩ := Prod.mk.inj told
  obtain ⟨other, read, written⟩ := Option.map_eq_some_iff.mp read
  obtain ⟨value, found, writes⟩ := Option.map_eq_some_iff.mp given
  refine ⟨request, first, patch, value, other, Except.eq_ok_of_toOption found,
    Except.eq_ok_of_toOption read, fun same => ?_⟩
  rw [same, writes] at written
  exact absurd written (by decide +kernel)

end WorkflowKit.CommandLine
