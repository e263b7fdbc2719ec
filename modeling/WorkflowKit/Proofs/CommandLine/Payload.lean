import WorkflowKit.Proofs.CommandLine.Stdout
import WorkflowKit.Proofs.Json.Printing
import WorkflowKit.Proofs.Json.Records

namespace WorkflowKit

namespace GitHub

/-- Holds of a text in which a call finds a value: it is the whole text, or a list in an object of
which the other members do not count. -/
inductive Call.Finds : Call → Nat → List Char → Json → Prop
  | issue {title label : String} {depth : Nat} {cs : List Char} {v : Json} :
      Json.Encodes depth cs v → Finds (.createIssue title label) depth cs v
  | comments {issue depth : Nat} {cs : List Char} {v : Json} :
      Json.Encodes depth cs v → Finds (.listComments issue) depth cs v
  | issues {label : String} {depth : Nat} {cs : List Char} {items : List Json} :
      Json.HoldsList "items" depth cs items → Finds (.searchIssues label) (depth + 1) cs (.array items)
  | artifacts {run depth : Nat} {cs : List Char} {items : List Json} :
      Json.HoldsList "artifacts" depth cs items →
        Finds (.listArtifacts run) (depth + 1) cs (.array items)

variable {call : Call} {depth : Nat} {cs : List Char} {v : Json}

/-- The items are found in the object, whatever other members it has. -/
theorem listOf_of_holdsList {name : String} {items : List Json}
    (holds : Json.HoldsList name depth cs items) (deep : depth + 1 < Json.usualDepth)
    {shape : Json.Shape} (fields : shape.fields = [(name, .list)]) :
    listOf shape (Octets.ofChars cs) = .ok items := by
  rw [listOf, holds.readRecord deep fields]
  rfl

namespace Call.Finds

theorem prints (finds : call.Finds depth cs v) : CommandLine.printsOutcome call := by
  cases finds <;> rfl

/-- The value that a call finds is what it gives. -/
theorem read (finds : call.Finds depth cs v) (deep : depth < Json.usualDepth) :
    ∃ summary, call.read (Octets.ofChars cs) = .ok (.value v, summary) := by
  cases finds with
  | issue encodes =>
    rw [Call.read, encodes.readFirst deep]
    exact ⟨_, rfl⟩
  | comments encodes =>
    rw [Call.read, encodes.readFirst deep]
    exact ⟨_, rfl⟩
  | issues holds =>
    rw [Call.read, listOf_of_holdsList holds deep rfl]
    exact ⟨_, rfl⟩
  | artifacts holds =>
    rw [Call.read, listOf_of_holdsList holds deep rfl]
    exact ⟨_, rfl⟩

theorem admitted (finds : call.Finds depth cs v) (deep : depth < Json.usualDepth) :
    ∃ inner < Json.usualDepth, Json.Admitted inner v := by
  cases finds with
  | issue encodes => exact ⟨_, deep, encodes.admitted⟩
  | comments encodes => exact ⟨_, deep, encodes.admitted⟩
  | issues holds => exact ⟨_, Nat.lt_of_succ_lt deep, holds.admitted⟩
  | artifacts holds => exact ⟨_, Nat.lt_of_succ_lt deep, holds.admitted⟩

end Call.Finds

/-- A call that saves nothing gives what it reads in the response that ends its exchange. -/
theorem Client.perform_of_answered {client : Client} (only : call.isDownload = false)
    {request : Http.Request} (made : client.requestOf call = .ok request) (session : Session)
    {response : Http.Response} (answered : (session.traffic.exchange request).1 = .ok response)
    (success : response.isSuccess) {outcome : Outcome} {summary : String}
    (read : call.read response.body = .ok (outcome, summary)) :
    (client.perform call session).1 = .ok outcome := by
  have exchanged : session.exchange call request =
      (.ok response, { session with traffic := (session.traffic.exchange request).2 }) := by
    simp only [Session.exchange, answered, Except.mapError]
  have taken : call.answered response = .ok (outcome, summary) := by
    rw [Call.answered, if_pos success, read]
    rfl
  rw [perform_of_not_isDownload only made, exchanged]
  simp only [finish, taken, conclude]

end GitHub

namespace CommandLine

/-- A value that an answer holds is printed on one line, which encodes this value and no other. -/
theorem program_payload {surroundings : Surroundings} {arguments : List String}
    {access : GitHub.Access} {call : GitHub.Call}
    (accepted : Command.read surroundings.environment arguments = .ok (.gitHub access (.call call)))
    {client : GitHub.Client} (made : GitHub.Client.make access = .ok client)
    {request : Http.Request} (asked : client.requestOf call = .ok request)
    {response : Http.Response}
    (answered : ((Http.Traffic.start surroundings.network).exchange request).1 = .ok response)
    (success : response.isSuccess) {depth : Nat} (deep : depth < Json.usualDepth)
    {answer : List Char} {v : Json} (finds : call.Finds depth answer v)
    (body : response.body = Octets.ofChars answer) :
    let done := program surroundings arguments
    done.status = 0 ∧
      ∃ line, done.stdout = line ++ [0x0A] ∧ 0x0A ∉ line ∧ Json.read line = .ok v ∧
        ∃ text inner, line = Octets.ofChars text ∧ Json.Encodes inner text v ∧
          ∀ other w, Json.Encodes other text w → w = v := by
  intro done
  obtain ⟨summary, read⟩ := finds.read deep
  rw [← body] at read
  have only : call.isDownload = false := by cases finds <;> rfl
  have outcome := GitHub.Client.perform_of_answered only asked
    (.start surroundings.network surroundings.workplace.files) answered success read
  have printed : printedOutcome call (.value v) = ⟨v.octets ++ [0x0A], none⟩ := by
    simp [printedOutcome, finds.prints]
  have run : ((Command.gitHub access (.call call)).run surroundings).printed = v.octets ++ [0x0A] ∧
      ((Command.gitHub access (.call call)).run surroundings).failure = none := by
    simp [Command.run, runGitHub, made, Operation.toCall, bind, Except.bind, pure, Except.pure,
      outcome, printed]
  -- That a line encodes the value needs no more than that it was read of a text that does.
  obtain ⟨_, same, fits⟩ := GitHub.Call.value_of_read finds.prints read
  cases same
  obtain ⟨inner, shallow, admitted⟩ := finds.admitted deep
  refine ⟨?_, v.octets, ?_, (IsDocument.octets fits).lineFeed_not_mem, admitted.read_octets shallow,
    v.chars, inner, rfl, admitted.encodes, fun other w encodes => encodes.unique admitted.encodes⟩
  · simp only [done, program, accepted, Run.status_eq_zero_iff, run]
  · simp only [done, program, accepted, run]

/-- An escape is written as the character, and how many issues there are does not matter. -/
theorem program_payload_issues :
    let answer := "\x7b\"total_count\": 7, \"items\": [\"\\u0041\"]\x7d".toList
    let network : Http.Network := ⟨["api.github.com"], [⟨200, [], Octets.ofChars answer⟩]⟩
    let surroundings : Surroundings := ⟨[], ⟨none, .empty⟩, network⟩
    let done := program surroundings ["github", "search-issues", "--label", "b"]
    GitHub.Call.Finds (.searchIssues "b") 2 answer (.array [.text "A"]) ∧ done.status = 0 ∧
      ∃ line, done.stdout = line ++ [0x0A] ∧ 0x0A ∉ line ∧
        Json.read line = .ok (.array [.text "A"]) := by
  intro answer network surroundings done
  have space : Json.Blanks [' '] := by simp [Json.Blanks]
  have noBlanks : Json.Blanks [] := List.forall_mem_nil _
  have whole : Json.Whole ['7'] := ⟨⟨by decide, by simp⟩, by decide⟩
  have seven : Json.Encodes 0 [' ', '7'] (.number (.integer 7)) :=
    .blanks space (.natural whole (by decide)) noBlanks
  have escape : Json.Spells ['\\', 'u', '0', '0', '4', '1'] 'A' :=
    .number (.digits (i := 0) (j := 0) (k := 4) (l := 1) rfl rfl rfl rfl)
  have letter : Json.Quotes "A" _ := .quoted (.cons escape .nil)
  have list : Json.Encodes 1 _ (.array [.text "A"]) :=
    .blanks space (.list [(_, .text "A")] (by simp) (List.forall_mem_singleton.mpr (.text letter)))
      noBlanks
  have holds : Json.HoldsList "items" 1 answer [.text "A"] :=
    .object [⟨[], Json.quotedChars "total_count".toList, [], [' ', '7'], "total_count", _⟩] []
      ⟨[' '], Json.quotedChars "items".toList, [], _, "items", .array [.text "A"]⟩ noBlanks noBlanks
      (by
        simp only [List.singleton_append, List.forall_mem_cons]
        exact ⟨⟨noBlanks, Json.quotes_quotedChars _, noBlanks⟩,
          ⟨space, Json.quotes_quotedChars _, noBlanks⟩,
          List.forall_mem_nil _⟩)
      (List.forall_mem_singleton.mpr ⟨by decide, 0, seven⟩) rfl list
  have finds : GitHub.Call.Finds (.searchIssues "b") 2 answer (.array [.text "A"]) := .issues holds
  have accepted : Command.read surroundings.environment ["github", "search-issues", "--label", "b"] =
      .ok (.gitHub ⟨GitHub.usualAddress, GitHub.usualRepository, none⟩
        (.call (.searchIssues "b"))) := rfl
  have printed := program_payload accepted (GitHub.Client.make_usual rfl) rfl
    rfl rfl (by decide) finds rfl
  obtain ⟨status, line, stdout, free, read, _⟩ := printed
  exact ⟨finds, status, line, stdout, free, read⟩

end CommandLine

end WorkflowKit
