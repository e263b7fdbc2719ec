import WorkflowKit.Proofs.GitHub.Placement

namespace WorkflowKit.GitHub

namespace Call

/-- The places of the path at which a label is deleted. -/
def labelParts (repository : Repository) (issue : Nat) (label : String) : List String :=
  ["repos", repository.owner, repository.name, "issues", toString issue, "labels",
    Text.pathPart label]

theorem pathText_labelParts (repository : Repository) (issue : Nat) (label : String) :
    Http.Uri.pathText (labelParts repository issue label) = "/repos/" ++ repository.owner ++ "/" ++
      repository.name ++ "/issues/" ++ toString issue ++ "/labels/" ++ Text.pathPart label := by
  refine String.toList_inj.mp ?_
  simp [labelParts, Http.Uri.toList_pathText]

theorem route_deleteLabel (repository : Repository) (issue : Nat) (label : String) :
    (deleteLabel issue label).route repository =
      Http.Uri.pathText (labelParts repository issue label) := by
  refine String.toList_inj.mp ?_
  unfold route
  simp [labelParts, Repository.route, Repository.text, Http.Uri.toList_pathText, toString]

theorem pathText_labelParts_ne (repository : Repository) (issue : Nat) (label : String) :
    Http.Uri.pathText (labelParts repository issue label) ≠ "" := by
  rw [ne_eq, ← String.toList_eq_nil_iff, Http.Uri.toList_pathText]
  exact List.cons_ne_nil _ _

/-- A label that is escaped has no separator left, whatever is in it. -/
theorem isPlace_pathPart (s : String) : Http.Uri.IsPlace (Text.pathPart s) :=
  fun _ member => Text.plain_of_mem_pathPart member

theorem labelParts_isPlace {repository : Repository} (named : repository.IsNamed) (issue : Nat)
    (label : String) : ∀ part ∈ labelParts repository issue label, Http.Uri.IsPlace part := by
  have places := parts_isPlace named (deleteLabel issue label)
  exact List.forall_mem_append.mpr ⟨places, List.forall_mem_singleton.mpr (isPlace_pathPart label)⟩

theorem pathPart_inj {a b : String} (same : Text.pathPart a = Text.pathPart b) : a = b := by
  have octets := congrArg (fun s => Text.placeOctets s.toList) same
  simp only [Text.placeOctets_pathPart] at octets
  rw [← Octets.lossyText_ofText a, octets, Octets.lossyText_ofText]

/-- The issue and the label can be told from the places. -/
theorem labelParts_inj {repository : Repository} {issue issue' : Nat} {label label' : String}
    (same : labelParts repository issue label = labelParts repository issue' label') :
    issue = issue' ∧ label = label' := by
  simp only [labelParts, List.cons.injEq, and_true, true_and] at same
  exact ⟨repr_eq_repr_iff.mp same.1, pathPart_inj same.2⟩

end Call

namespace Client

variable {access : Access} {client : Client}

/-- The request that deletes a label. -/
theorem requestOf_deleteLabel (token : client.token.isSome) (named : client.repository.IsNamed)
    {issue : Nat} {label : String}
    (short : ((Call.deleteLabel issue label).route client.repository).utf8ByteSize ≤
      Http.Uri.lengthLimit) :
    ∃ request, client.requestOf (.deleteLabel issue label) = .ok request ∧
      request.method = .delete ∧
      request.uri = client.addressOf (Call.labelParts client.repository issue label) none :=
  ⟨_, requestOf_of_path (fun _ => token) (Call.route_deleteLabel client.repository issue label)
    (List.cons_ne_nil _ _) (Call.labelParts_isPlace named issue label) short, rfl, rfl⟩

/-- A request that deletes a label tells which issue and which label are meant. -/
theorem eq_of_deleteLabel (token : client.token.isSome) (named : client.repository.IsNamed)
    {issue issue' : Nat} {label label' : String} {request : Http.Request}
    (uri : request.uri = client.addressOf (Call.labelParts client.repository issue label) none)
    {network : Http.Network} {files : Files}
    (first : (client.step (.deleteLabel issue' label') network files).requests.head? =
      some request) : issue' = issue ∧ label' = label := by
  have made := requestOf_of_head? first
  have short := short_of_requestOf token made
  obtain ⟨_, made', _, uri'⟩ := requestOf_deleteLabel token named short
  obtain rfl := Except.ok.inj (made.symm.trans made')
  obtain ⟨parts, _⟩ := addressOf_inj (Call.labelParts_isPlace named issue' label')
    (Call.labelParts_isPlace named issue label) (uri'.symm.trans uri)
  exact Call.labelParts_inj parts

/-- A label is deleted by a request for one path without a query, of which the last place is the label
and nothing else, or nothing is sent: either the route is too long or no server is reached. No other
label, and no other issue, is asked for by the same request. -/
theorem step_deleteLabel (made : make access = .ok client) (token : access.token.isSome)
    (named : access.repository.IsNamed) (issue : Nat) (label : String) :
    let call := Call.deleteLabel issue label
    (∀ scheme server, Http.Uri.IsPlain access.address scheme server → client.root = "") ∧
    (Http.Uri.lengthLimit < (call.route access.repository).utf8ByteSize →
      ∀ network files, (∃ failure, (client.step call network files).result = .error failure) ∧
        (client.step call network files).requests = []) ∧
    ((call.route access.repository).utf8ByteSize ≤ Http.Uri.lengthLimit →
      ∃ (request : Http.Request) (place : String),
        request.method = .delete ∧ request.uri.scheme = client.base.scheme ∧
        request.uri.authority = client.base.authority ∧ request.uri.query = none ∧
        '?' ∉ request.uri.target.toList ∧
        request.uri.target = client.root ++ "/repos/" ++ access.repository.owner ++ "/" ++
          access.repository.name ++ "/issues/" ++ toString issue ++ "/labels/" ++ place ∧
        '/' ∉ place.toList ∧ Text.placeOctets place.toList = Octets.ofText label ∧
        (∀ network files,
          (client.step call network files).requests.head? = some request ∧
              network.Reaches request ∨
            (∃ failure, (client.step call network files).result = .error failure) ∧
              (client.step call network files).requests = [] ∧ ¬ network.Reaches request) ∧
        ∀ issue' label' network files,
          (client.step (.deleteLabel issue' label') network files).requests.head? =
            some request → issue' = issue ∧ label' = label) := by
  intro call
  obtain ⟨_, repository, known⟩ := parts_of_make made
  rw [← repository] at named ⊢
  rw [← known] at token
  refine ⟨fun _ _ => root_of_isPlain made, fun long network files => ?_, fun short => ?_⟩
  · obtain ⟨failed, nothing⟩ := step_of_error (requestOf_of_tooLong (fun _ => token) long) network files
    exact ⟨⟨_, failed⟩, nothing⟩
  · obtain ⟨request, requested, method, uri⟩ := requestOf_deleteLabel token named short
    have places := Call.labelParts_isPlace named issue label
    have visible := Call.pathText_labelParts_ne client.repository issue label
    -- The last place of the path is the escaped label.
    refine ⟨request, Text.pathPart label, method, by rw [uri]; rfl, by rw [uri]; rfl,
      by rw [uri]; rfl, ?_, ?_, fun slash => ?_, Text.placeOctets_pathPart label,
      step_sends requested, ?_⟩
    · rw [uri]
      exact question_not_mem_target made places visible
    · rw [uri, target_addressOf visible, Call.pathText_labelParts]
      simp only [Option.map_none, Option.getD_none, String.append_empty, String.append_assoc]
    · exact (Text.plain_of_mem_pathPart slash).2 rfl
    · exact fun issue' label' network files => eq_of_deleteLabel token named uri

/-- A label with separators and signs in it is one place of the path. -/
theorem step_deleteLabel_separators :
    let network : Http.Network := ⟨["api.github.com"], [⟨200, [], Octets.ofText "[]"⟩]⟩
    ∃ (request : Http.Request) (place : String),
      ((usual (some "tok")).step (.deleteLabel 7 "a/b?c#d %2F") network .empty).requests.head? =
        some request ∧
      request.method = .delete ∧
      request.uri.target = "/repos/firebase/firebase-cpp-sdk/issues/7/labels/" ++ place ∧
      '/' ∉ place.toList ∧ Text.placeOctets place.toList = Octets.ofText "a/b?c#d %2F" := by
  intro network
  have short : ((Call.deleteLabel 7 "a/b?c#d %2F").route usualRepository).utf8ByteSize ≤
      Http.Uri.lengthLimit := by decide +kernel
  obtain ⟨root, _, asked⟩ := @step_deleteLabel ⟨usualAddress, usualRepository, some "tok"⟩ _
    (make_usual (by decide)) rfl isNamed_usualRepository 7 "a/b?c#d %2F"
  obtain ⟨request, place, method, scheme, server, _, _, target, single, told, sends, _⟩ := asked short
  rw [root _ _ isPlain_usualAddress] at target
  have reaches : network.Reaches request :=
    ⟨scheme ▸ rfl, "api.github.com", List.mem_singleton_self _, server⟩
  rcases sends network .empty with ⟨first, _⟩ | ⟨_, _, lost⟩
  · exact ⟨request, place, first, method, target, single, told⟩
  · exact absurd reaches lost

/-- The path of an address is kept before the route, so that a path below such an address does not begin
with the route. -/
theorem step_deleteLabel_below :
    let access : Access := ⟨"https://api.github.com/api/v3", usualRepository, some "tok"⟩
    let network : Http.Network := ⟨["api.github.com"], [⟨200, [], Octets.ofText "[]"⟩]⟩
    access.repository.IsNamed ∧ ∃ client, make access = .ok client ∧
      ∃ request, (client.step (.deleteLabel 1 "bug") network .empty).requests.head? = some request ∧
        ∀ place, request.uri.target ≠
          "/repos/firebase/firebase-cpp-sdk/issues/1/labels/" ++ place := by
  intro access network
  let client : Client := ⟨⟨some "https", some "api.github.com", "/api/v3", none⟩,
    "https://api.github.com/api/v3", usualRepository, some "tok"⟩
  have made : (make access).toOption = some client := by decide +kernel
  have asked : (client.step (.deleteLabel 1 "bug") network .empty).requests.head?.map
      (·.uri.target) =
      some "/api/v3/repos/firebase/firebase-cpp-sdk/issues/1/labels/bug" := by decide +kernel
  obtain ⟨request, first, target⟩ := Option.map_eq_some_iff.mp asked
  refine ⟨isNamed_usualRepository, client, Except.eq_ok_of_toOption made, request, first, ?_⟩
  intro place same
  have second : ("/repos/firebase/firebase-cpp-sdk/issues/1/labels/" ++ place).toList[1]? =
      some 'r' := by
    rw [String.toList_append, List.getElem?_append_left (by decide)]
    rfl
  rw [← same, target] at second
  exact absurd second (by decide)

end Client

end WorkflowKit.GitHub
