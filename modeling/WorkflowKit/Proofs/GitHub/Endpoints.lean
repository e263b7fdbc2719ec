import WorkflowKit.GitHub.Call
import WorkflowKit.Proofs.Http.Uri
import WorkflowKit.Proofs.Json.Printing
import WorkflowKit.Proofs.Text.Percent
import Mathlib.Tactic.SplitIfs

namespace WorkflowKit.GitHub

/-- Where a call is made: at a path, below a path, or at a path with one parameter in the query. -/
inductive Place where
  | path (parts : List String)
  | below (parts : List String)
  | form (parts : List String) (name value : String)

namespace Place

def parts : Place → List String
  | path parts => parts
  | below parts => parts
  | form parts _ _ => parts

/-- Holds of the targets that name a place. The value of a parameter is escaped as in a form. -/
def Names (target : String) : Place → Prop
  | path parts => target = Http.Uri.pathText parts
  | below parts => ∃ last, Http.Uri.IsPlace last ∧ target = Http.Uri.pathText (parts ++ [last])
  | form parts name value =>
    ∃ query : String, (∀ c ∈ query.toList, Http.Uri.isQueryChar c ∧ c ≠ '#') ∧
      target = Http.Uri.pathText parts ++ "?" ++ query ∧ Text.formParameters query = [(name, value)]

end Place

structure Endpoint where
  method : Http.Method
  place : Place
  content : Option Json

/-- Holds of a body that encodes a value. -/
def Carries (body : Octets) (value : Json) : Prop :=
  ∃ depth text, body = Octets.ofChars text ∧ Json.Encodes depth text value

/-- Holds of a request that is made as an endpoint expects it. Its body can be read in one way only. -/
structure Endpoint.Takes (endpoint : Endpoint) (request : Http.Request) : Prop where
  method : request.method = endpoint.method
  place : endpoint.place.Names request.uri.target
  content : ∀ value, endpoint.content = some value →
    request.contentType = some "application/json" ∧ Carries request.body value ∧
      ∀ other, Carries request.body other → other = value
  empty : endpoint.content = none → request.contentType = none ∧ request.body = []

theorem Carries.unique {body : Octets} {value other : Json} (carries : Carries body value)
    (carries' : Carries body other) : other = value := by
  obtain ⟨depth, text, rfl, encodes⟩ := carries
  obtain ⟨depth', text', same, encodes'⟩ := carries'
  have first := encodes.readTo (Nat.lt_succ_of_le (Nat.le_max_left depth depth'))
  have second := encodes'.readTo (Nat.lt_succ_of_le (Nat.le_max_right depth depth'))
  rw [same, second] at first
  exact Except.ok.inj first

theorem Carries.ne_nil {body : Octets} {value : Json} (carries : Carries body value) :
    body ≠ [] := by
  obtain ⟨depth, text, rfl, encodes⟩ := carries
  exact List.ne_nil_of_length_pos
    (Nat.lt_of_lt_of_le encodes.begins.length_pos (Octets.length_le_length_ofChars text))

/-- Letters, digits, hyphens, underscores and points. -/
def isNameChar (c : Char) : Bool :=
  c.isAlphanum || c = '-' || c = '_' || c = '.'

/-- Holds of a repository whose owner and name have only characters of names. -/
structure Repository.IsNamed (repository : Repository) : Prop where
  owner : ∀ c ∈ repository.owner.toList, isNameChar c
  name : ∀ c ∈ repository.name.toList, isNameChar c

namespace Call

/-- Holds of the calls whose content has only integers of 64 bits as numbers. -/
def HasIntegers : Call → Prop
  | updateIssue _ changes => ∃ depth, Json.Admitted depth changes
  | _ => True

/-- The endpoint of each call. -/
def endpoint (repository : Repository) (call : Call) : Endpoint :=
  let place (parts : List String) := ["repos", repository.owner, repository.name] ++ parts
  match call with
  | createIssue title label =>
    ⟨.post, .path (place ["issues"]),
      some (.ofMembers [("title", .text title), ("labels", .array [.text label])])⟩
  | updateIssue issue changes => ⟨.patch, .path (place ["issues", toString issue]), some changes⟩
  | openIssue issue =>
    ⟨.patch, .path (place ["issues", toString issue]), some (.ofMembers [("state", .text "open")])⟩
  | closeIssue issue =>
    ⟨.patch, .path (place ["issues", toString issue]),
      some (.ofMembers [("state", .text "closed")])⟩
  | updateIssueText issue text =>
    ⟨.patch, .path (place ["issues", toString issue]), some (.ofMembers [("body", .text text)])⟩
  | searchIssues label =>
    let value := "repo:" ++ repository.owner ++ "/" ++ repository.name ++ " label:\"" ++ label ++
      "\" is:issue"
    ⟨.get, .form ["search", "issues"] "q" value, none⟩
  | listComments issue => ⟨.get, .path (place ["issues", toString issue, "comments"]), none⟩
  | addComment issue text =>
    ⟨.post, .path (place ["issues", toString issue, "comments"]),
      some (.ofMembers [("body", .text text)])⟩
  | updateComment comment text =>
    ⟨.patch, .path (place ["issues", "comments", toString comment]),
      some (.ofMembers [("body", .text text)])⟩
  | deleteComment comment =>
    ⟨.delete, .path (place ["issues", "comments", toString comment]), none⟩
  | addLabel issue label =>
    ⟨.post, .path (place ["issues", toString issue, "labels"]), some (.array [.text label])⟩
  | deleteLabel issue _ => ⟨.delete, .below (place ["issues", toString issue, "labels"]), none⟩
  | listArtifacts run =>
    ⟨.get, .path (place ["actions", "runs", toString run, "artifacts"]), none⟩
  | downloadArtifact artifact _ =>
    ⟨.get, .path (place ["actions", "artifacts", toString artifact, "zip"]), none⟩

/-- The call without what its request does not tell: where an artifact is saved. -/
def asked : Call → Call
  | downloadArtifact artifact _ => downloadArtifact artifact ""
  | call => call

variable {repository : Repository} {call : Call}

theorem method_eq (repository : Repository) (call : Call) :
    call.method = (call.endpoint repository).method := by
  cases call <;> rfl

theorem labels_lt : "labels" < "title" := by decide

theorem content?_eq (repository : Repository) (call : Call) :
    call.content? = (call.endpoint repository).content := by
  cases call with
  | createIssue title label =>
    exact congrArg some (Json.ofMembers_pair (b := ("labels", .array [.text label])) labels_lt).symm
  | _ => rfl

/-- The content of a call is a value that a text can encode. -/
theorem admitted_content (integers : call.HasIntegers) {value : Json}
    (content : (call.endpoint repository).content = some value) :
    ∃ depth, Json.Admitted depth value := by
  have member (name text : String) : Json.Admitted 1 (.ofMembers [(name, .text text)]) :=
    .object (List.pairwise_singleton _ _) (List.forall_mem_singleton.mpr (.text text))
  have one (text : String) : Json.Admitted 1 (.array [.text text]) :=
    .array (List.forall_mem_singleton.mpr (.text text))
  cases call with
  | createIssue title label =>
    cases content
    rw [Json.ofMembers_pair (b := ("labels", .array [.text label])) labels_lt]
    refine ⟨2, .object (List.pairwise_pair.mpr labels_lt) ?_⟩
    exact List.forall_mem_cons.mpr ⟨one label, List.forall_mem_singleton.mpr (.text title)⟩
  | updateIssue issue changes =>
    cases content
    exact integers
  | addLabel issue label =>
    cases content
    exact ⟨1, one label⟩
  | searchIssues | listComments | deleteComment | deleteLabel | listArtifacts | downloadArtifact =>
    cases content
  | _ =>
    cases content
    exact ⟨1, member _ _⟩

theorem searchText_eq (repository : Repository) (label : String) :
    searchText repository label = "repo:" ++ repository.owner ++ "/" ++ repository.name ++
      " label:\"" ++ label ++ "\" is:issue" := by
  simp [searchText, Repository.text, String.append_assoc, toString]

theorem route_searchIssues (repository : Repository) (label : String) :
    (searchIssues label).route repository = Http.Uri.pathText ["search", "issues"] ++ "?" ++
      ("q" ++ "=" ++ Text.formValue (searchText repository label)) := by
  refine String.toList_inj.mp ?_
  unfold route
  simp [Http.Uri.toList_pathText]

/-- The route of a call names the place of its endpoint. -/
theorem names_route (repository : Repository) (call : Call) :
    (call.endpoint repository).place.Names (call.route repository) := by
  cases call with
  | searchIssues label =>
    refine ⟨_, ?_, route_searchIssues repository label, ?_⟩
    · have chars : ("q" ++ "=" ++ Text.formValue (searchText repository label)).toList =
          'q' :: '=' :: (Text.formValue (searchText repository label)).toList := by simp
      rw [chars, List.forall_mem_cons, List.forall_mem_cons]
      refine ⟨by decide, by decide, fun c member => ?_⟩
      obtain ⟨plain, _, _, unmarked⟩ := Text.plain_of_mem_formValue member
      exact ⟨plain, unmarked⟩
    · rw [searchText_eq]
      exact Text.formParameters_single (by simp) _
  | deleteLabel issue label =>
    refine ⟨Text.pathPart label, fun c member => Text.plain_of_mem_pathPart member, ?_⟩
    refine String.toList_inj.mp ?_
    unfold route
    simp [Repository.route, Repository.text, Http.Uri.toList_pathText, toString]
  | _ =>
    refine String.toList_inj.mp ?_
    unfold route shownRoute
    simp [Repository.route, Repository.text, Http.Uri.toList_pathText, toString]

theorem isPlace_of_names {text : String} (named : ∀ c ∈ text.toList, isNameChar c) :
    Http.Uri.IsPlace text := by
  intro c member
  have nameChar := named c member
  have ascii : c.toNat < 0x80 := by
    simp only [isNameChar, Bool.or_eq_true, decide_eq_true_eq] at nameChar
    rcases nameChar with ((alphanum | rfl) | rfl) | rfl
    · rcases (Bool.or_eq_true _ _).mp alphanum with letter | digit
      · rcases (Bool.or_eq_true _ _).mp letter with upper | lower
        · exact Nat.lt_of_le_of_lt (of_decide_eq_true upper).2 (by decide)
        · exact Nat.lt_of_le_of_lt (of_decide_eq_true ((Bool.and_eq_true _ _).mp lower).2) (by decide)
      · exact Nat.lt_of_le_of_lt (of_decide_eq_true ((Bool.and_eq_true _ _).mp digit).2) (by decide)
    all_goals decide
  have each : ∀ n < 0x80, isNameChar (Char.ofNat n) →
      Http.Uri.isPathChar (Char.ofNat n) ∧ Char.ofNat n ≠ '/' := by decide
  have found := each c.toNat ascii
  rw [Char.ofNat_toNat] at found
  exact found nameChar

/-- Numbers in a path tell what they are numbers of. -/
theorem repr_eq_repr_iff {m n : Nat} : m.repr = n.repr ↔ m = n := by
  refine ⟨fun same => ?_, congrArg Nat.repr⟩
  have digits : Nat.toDigits 10 m = Nat.toDigits 10 n := String.ofList_injective same
  have value (k : Nat) : Nat.ofDigitChars 10 (Nat.toDigits 10 k) 0 = k :=
    Nat.ofDigitChars_toDigits (by decide) (by decide)
  rw [← value m, digits, value]

theorem isPlace_repr (n : Nat) : Http.Uri.IsPlace n.repr := by
  refine isPlace_of_names fun c member => ?_
  rw [Nat.toList_repr] at member
  have digit := Nat.isDigit_of_mem_toDigits (by decide) (by decide) member
  simp [isNameChar, Char.isAlphanum, digit]

/-- The places of an endpoint are plain, as the names of the repository are and numbers always
are. -/
theorem parts_isPlace (named : repository.IsNamed) (call : Call) :
    ∀ part ∈ (call.endpoint repository).place.parts, Http.Uri.IsPlace part := by
  have owner := isPlace_of_names named.owner
  have name := isPlace_of_names named.name
  cases call <;> simp +decide [endpoint, Place.parts, owner, name, isPlace_repr]

theorem parts_ne_nil (repository : Repository) (call : Call) :
    (call.endpoint repository).place.parts ≠ [] := by
  cases call <;> simp [endpoint, Place.parts]

/-- Only of the place where a label is deleted the end is left open. -/
theorem ne_below (whole : call.name ≠ "delete_label") (parts : List String) :
    (call.endpoint repository).place ≠ .below parts := by
  cases call with
  | deleteLabel => exact absurd rfl whole
  | _ => exact Place.noConfusion

/-- Two calls of one kind with the same place and the same content are the same, as far as requests
tell. Of the label that is deleted the place says nothing. -/
theorem asked_eq_of_endpoint {other : Call} (same : other.name = call.name)
    (whole : call.name ≠ "delete_label")
    (place : (other.endpoint repository).place = (call.endpoint repository).place)
    (content : other.content? = call.content?) : other.asked = call.asked := by
  cases call <;> cases other <;> simp only [name, String.reduceEq] at same
  all_goals
    simp only [endpoint, Nat.toString_eq_repr, List.cons_append, List.nil_append, Place.path.injEq,
      List.cons.injEq, repr_eq_repr_iff] at place
    simp_all [name, content?, Json.ofTexts, asked]

end Call

/-- A text that names a place is a route. -/
theorem Place.Names.isRoute {target : String} {place : Place} (names : place.Names target)
    (places : ∀ part ∈ place.parts, Http.Uri.IsPlace part) (nonempty : place.parts ≠ []) :
    Http.Uri.IsRoute target := by
  cases place with
  | path parts =>
    obtain rfl := names
    exact .path nonempty places
  | below parts =>
    obtain ⟨last, isPlace, rfl⟩ := names
    refine .path (List.append_ne_nil_of_left_ne_nil nonempty _) ?_
    exact List.forall_mem_append.mpr ⟨places, List.forall_mem_singleton.mpr isPlace⟩
  | form parts name value =>
    obtain ⟨query, plain, rfl, _⟩ := names
    exact .query nonempty places plain

/-- A target names one place, unless it is only known what it lies below. -/
theorem Place.Names.unique {target : String} {place other : Place} (names : place.Names target)
    (names' : other.Names target) (places : ∀ part ∈ place.parts, Http.Uri.IsPlace part)
    (places' : ∀ part ∈ other.parts, Http.Uri.IsPlace part)
    (whole : ∀ parts, place ≠ .below parts) (whole' : ∀ parts, other ≠ .below parts) :
    other = place := by
  cases place with
  | below parts => exact absurd rfl (whole parts)
  | path parts =>
    cases other with
    | below others => exact absurd rfl (whole' others)
    | path others =>
      exact congrArg path (Http.Uri.pathText_inj places' places (names'.symm.trans names))
    | form others name value =>
      obtain ⟨query, _, same, _⟩ := names'
      exact absurd (names.symm.trans same) (Http.Uri.pathText_ne_query places others query)
  | form parts name value =>
    obtain ⟨query, _, same, told⟩ := names
    cases other with
    | below others => exact absurd rfl (whole' others)
    | path others =>
      exact absurd (names'.symm.trans same) (Http.Uri.pathText_ne_query places' parts query)
    | form others name' value' =>
      obtain ⟨query', _, same', told'⟩ := names'
      dsimp only [Place.parts] at places places'
      obtain ⟨rfl, rfl⟩ := Http.Uri.pathText_query_inj places places' (same.symm.trans same')
      have parameter := told.symm.trans told'
      simp only [List.cons.injEq, Prod.mk.injEq, and_true] at parameter
      obtain ⟨rfl, rfl⟩ := parameter
      rfl

/-- Requests with the same body have the same content. -/
theorem Endpoint.Takes.content_unique {endpoint other : Endpoint} {request request' : Http.Request}
    (takes : endpoint.Takes request) (takes' : other.Takes request')
    (body : request'.body = request.body) : other.content = endpoint.content := by
  cases content : endpoint.content with
  | none =>
    cases content' : other.content with
    | none => rfl
    | some value =>
      have filled := (takes'.content value content').2.1.ne_nil
      exact absurd (body.trans (takes.empty content).2) filled
  | some value =>
    cases content' : other.content with
    | none =>
      have filled := (takes.content value content).2.1.ne_nil
      exact absurd (body.symm.trans (takes'.empty content').2) filled
    | some value' =>
      have carries := (takes'.content value' content').2.1
      rw [body] at carries
      exact congrArg some ((takes.content value content).2.2 value' carries)

end WorkflowKit.GitHub
