import WorkflowKit.Proofs.GitHub.Placement

namespace WorkflowKit.Text

/-- Splits at the spaces that are not between double quotes. -/
def splitTerms (quoted : Bool) : List Char → List (List Char)
  | [] => [[]]
  | c :: rest =>
    if c = ' ' && !quoted then [] :: splitTerms false rest
    else (splitTerms (quoted != (c == '"')) rest).modifyHead (c :: ·)

/-- The terms of a search text. -/
def terms (s : String) : List String :=
  (splitTerms false s.toList).map String.ofList

/-- What the first double quote of a term encloses, up to the next one. -/
def enclosed (term : String) : String :=
  String.ofList (((term.toList.dropWhile (· ≠ '"')).drop 1).takeWhile (· ≠ '"'))

/-- Characters that neither end a term nor begin or end a quoted text belong to the term at hand. -/
theorem splitTerms_append {quoted : Bool} {cs : List Char}
    (inside : ∀ c ∈ cs, c ≠ '"' ∧ (c = ' ' → quoted)) (rest : List Char) :
    splitTerms quoted (cs ++ rest) = (splitTerms quoted rest).modifyHead (cs ++ ·) := by
  induction cs with
  | nil => exact (congrFun List.modifyHead_id _).symm
  | cons c cs ih =>
    obtain ⟨⟨notQuote, blank⟩, others⟩ := List.forall_mem_cons.mp inside
    have kept : (c = ' ' && !quoted) = false := by
      cases quoted with
      | false =>
        have other : c ≠ ' ' := fun space => Bool.false_ne_true (blank space)
        rw [decide_eq_false other, Bool.false_and]
      | true => exact Bool.and_false _
    have same : (quoted != (c == '"')) = quoted := by
      rw [beq_eq_false_iff_ne.mpr notQuote, Bool.bne_false]
    rw [List.cons_append, splitTerms, kept, if_neg Bool.false_ne_true, same, ih others,
      List.modifyHead_modifyHead]
    rfl

theorem splitTerms_space {cs : List Char} (plain : ∀ c ∈ cs, c ≠ '"' ∧ c ≠ ' ') (rest : List Char) :
    splitTerms false (cs ++ ' ' :: rest) = cs :: splitTerms false rest := by
  rw [splitTerms_append fun c member => ⟨(plain c member).1, fun blank =>
    absurd blank (plain c member).2⟩]
  simp [splitTerms]

/-- A text between quotes that has no quote itself belongs to one term with its name. -/
theorem splitTerms_quoted {name cs : List Char} (plain : ∀ c ∈ name, c ≠ '"' ∧ c ≠ ' ')
    (free : '"' ∉ cs) (rest : List Char) :
    splitTerms false (name ++ '"' :: (cs ++ '"' :: ' ' :: rest)) =
      (name ++ '"' :: (cs ++ ['"'])) :: splitTerms false rest := by
  have inside : ∀ c ∈ cs, c ≠ '"' ∧ (c = ' ' → true) :=
    fun c member => ⟨fun quote => free (quote ▸ member), fun _ => rfl⟩
  rw [splitTerms_append fun c member => ⟨(plain c member).1, fun blank =>
    absurd blank (plain c member).2⟩]
  simp [splitTerms, splitTerms_append inside]

/-- A text is what the quotes enclose if it has no quote itself. -/
theorem enclosed_eq_iff {name : String} (plain : '"' ∉ name.toList) (s : String) :
    enclosed (name ++ "\"" ++ s ++ "\"") = s ↔ '"' ∉ s.toList := by
  have before : ∀ c ∈ name.toList, decide (c ≠ '"') = true :=
    fun c member => decide_eq_true fun quote => plain (quote ▸ member)
  have chars : enclosed (name ++ "\"" ++ s ++ "\"") =
      String.ofList ((s.toList ++ ['"']).takeWhile (· ≠ '"')) := by
    have after : (name.toList ++ '"' :: (s.toList ++ ['"'])).dropWhile (· ≠ '"') =
        '"' :: (s.toList ++ ['"']) := by
      rw [List.dropWhile_append_of_pos before, List.dropWhile_cons_of_neg (by decide)]
    simp only [enclosed, String.toList_append, List.append_assoc]
    exact congrArg (fun left => String.ofList ((left.drop 1).takeWhile (· ≠ '"'))) after
  rw [chars]
  refine ⟨fun same member => ?_, fun free => ?_⟩
  · rw [← same, String.toList_ofList] at member
    simpa using List.mem_takeWhile_imp member
  · have inside : ∀ c ∈ s.toList, decide (c ≠ '"') = true :=
      fun c member => decide_eq_true fun quote => free (quote ▸ member)
    rw [List.takeWhile_append_of_pos inside, List.takeWhile_cons_of_neg (by decide),
      List.append_nil, String.ofList_toList]

end WorkflowKit.Text

namespace WorkflowKit.GitHub

/-- Holds of a search text that asks for the issues of a repository with a label and for nothing else:
the label is all of what the quotes of its term enclose. -/
structure Repository.AsksFor (repository : Repository) (label text : String) : Prop where
  terms : Text.terms text = ["repo:" ++ repository.text, "label:\"" ++ label ++ "\"", "is:issue"]
  enclosed : Text.enclosed ("label:\"" ++ label ++ "\"") = label

namespace Repository

variable {repository : Repository}

instance (repository : Repository) (label text : String) :
    Decidable (repository.AsksFor label text) :=
  decidable_of_iff (_ ∧ _) ⟨fun both => ⟨both.1, both.2⟩, fun asks => ⟨asks.terms, asks.enclosed⟩⟩

/-- A name has neither quotes nor spaces. -/
theorem plain_of_isNamed (named : repository.IsNamed) :
    ∀ c ∈ ("repo:" ++ repository.text).toList, c ≠ '"' ∧ c ≠ ' ' := by
  have plain {text : List Char} (nameChars : ∀ c ∈ text, isNameChar c) :
      ∀ c ∈ text, c ≠ '"' ∧ c ≠ ' ' := by
    refine fun c member => ⟨?_, ?_⟩ <;> rintro rfl <;>
      exact absurd (nameChars _ member) (by decide)
  simp only [text, String.toList_append, List.forall_mem_append]
  exact ⟨by simp, ⟨plain named.owner, by simp⟩, plain named.name⟩

/-- The search asks for what it should exactly if the label has no double quote. -/
theorem asksFor_searchText_iff (named : repository.IsNamed) (label : String) :
    repository.AsksFor label (Call.searchText repository label) ↔ '"' ∉ label.toList := by
  have quoted := Text.enclosed_eq_iff (show '"' ∉ "label:".toList by decide) label
  refine ⟨fun asks => quoted.mp asks.enclosed, fun free => ⟨?_, quoted.mpr free⟩⟩
  have chars : (Call.searchText repository label).toList =
      ("repo:" ++ repository.text).toList ++ ' ' ::
        ("label:".toList ++ '"' :: (label.toList ++ '"' :: ' ' :: "is:issue".toList)) := by
    simp [Call.searchText, toString]
  have last : Text.splitTerms false "is:issue".toList = ["is:issue".toList] := by decide
  have label' : ("label:\"" ++ label ++ "\"").toList =
      "label:".toList ++ '"' :: (label.toList ++ ['"']) := by simp
  rw [Text.terms, chars, Text.splitTerms_space (plain_of_isNamed named),
    Text.splitTerms_quoted (by simp) free, last, ← label', List.map_cons, List.map_cons,
    List.map_singleton, String.ofList_toList, String.ofList_toList, String.ofList_toList]

end Repository

namespace Client

variable {access : Access} {client : Client}

theorem searchIssues_allowed (label : String) :
    (Call.searchIssues label).needsToken → client.token.isSome := nofun

/-- The request of a search. -/
theorem requestOf_searchIssues {label : String}
    (short : ((Call.searchIssues label).route client.repository).utf8ByteSize ≤
      Http.Uri.lengthLimit) :
    ∃ request, client.requestOf (.searchIssues label) = .ok request ∧ request.method = .get ∧
      request.uri = client.addressOf ["search", "issues"]
        (some ("q" ++ "=" ++ Text.formValue (Call.searchText client.repository label))) := by
  have plain : ∀ c ∈ ("q" ++ "=" ++
      Text.formValue (Call.searchText client.repository label)).toList,
      Http.Uri.isQueryChar c ∧ c ≠ '#' := by
    simp only [String.toList_append, List.forall_mem_append]
    refine ⟨⟨by simp [Http.Uri.isQueryChar], by simp [Http.Uri.isQueryChar]⟩, fun c member => ?_⟩
    obtain ⟨plain, _, _, unmarked⟩ := Text.plain_of_mem_formValue member
    exact ⟨plain, unmarked⟩
  exact ⟨_, requestOf_of_query (searchIssues_allowed label)
    (Call.route_searchIssues client.repository label) (List.cons_ne_nil _ _)
    (List.forall_mem_cons.mpr ⟨by decide, List.forall_mem_singleton.mpr (by decide)⟩) plain short,
    rfl, rfl⟩

/-- A search tells the server one text, whether with a token or without. It asks for the issues of the
repository with the label, and for nothing else, exactly if the label has no double quote. -/
theorem step_searchIssues (made : make access = .ok client) (named : access.repository.IsNamed)
    (label : String) :
    let call := Call.searchIssues label
    (Http.Uri.lengthLimit < (call.route access.repository).utf8ByteSize →
      ∀ network files, (∃ failure, (client.step call network files).result = .error failure) ∧
        (client.step call network files).requests = []) ∧
    ((call.route access.repository).utf8ByteSize ≤ Http.Uri.lengthLimit →
      ∃ (request : Http.Request) (text : String),
        request.uri.query.map Text.formParameters = some [("q", text)] ∧
        (∀ network files,
          (client.step call network files).requests.head? = some request ∧
              network.Reaches request ∨
            (∃ failure, (client.step call network files).result = .error failure) ∧
              (client.step call network files).requests = [] ∧ ¬ network.Reaches request) ∧
        (access.repository.AsksFor label text ↔ '"' ∉ label.toList)) := by
  intro call
  obtain ⟨_, repository, _⟩ := parts_of_make made
  rw [← repository] at named ⊢
  refine ⟨fun long network files => ?_, fun short => ?_⟩
  · obtain ⟨failed, nothing⟩ := step_of_error
      (requestOf_of_tooLong (searchIssues_allowed label) long) network files
    exact ⟨⟨_, failed⟩, nothing⟩
  · obtain ⟨request, requested, _, uri⟩ := requestOf_searchIssues short
    refine ⟨request, Call.searchText client.repository label, ?_, step_sends requested,
      Repository.asksFor_searchText_iff named label⟩
    rw [uri]
    exact congrArg some (Text.formParameters_single (by simp) _)

/-- A label with spaces stays one term. -/
theorem step_searchIssues_spaces :
    ∃ (request : Http.Request) (text : String),
      request.uri.query.map Text.formParameters = some [("q", text)] ∧
      usualRepository.AsksFor "nightly repo:other/other" text ∧
      ∀ network files,
        ((usual none).step (.searchIssues "nightly repo:other/other") network files).requests.head? =
          some request ∨ ¬ network.Reaches request := by
  have short : ((Call.searchIssues "nightly repo:other/other").route
      usualRepository).utf8ByteSize ≤ Http.Uri.lengthLimit := by decide +kernel
  obtain ⟨_, asked⟩ := @step_searchIssues ⟨usualAddress, usualRepository, none⟩ _
    (make_usual (by decide)) isNamed_usualRepository "nightly repo:other/other"
  obtain ⟨request, text, told, sends, asks⟩ := asked short
  refine ⟨request, text, told, asks.mpr (by decide), fun network files => ?_⟩
  rcases sends network files with ⟨first, _⟩ | ⟨_, _, lost⟩
  · exact Or.inl first
  · exact Or.inr lost

/-- A label with double quotes asks for another repository as well. -/
theorem searchIssues_asks_elsewhere :
    let label := "x\" repo:other/other label:\"y"
    let network : Http.Network :=
      ⟨["api.github.com"], [⟨200, [], Octets.ofText "\x7b\"items\": []\x7d"⟩]⟩
    (make ⟨usualAddress, usualRepository, some "tok"⟩).toOption.map (fun client =>
      (client.step (.searchIssues label) network .empty).requests.map fun request =>
        request.uri.query.map fun query =>
          (Text.formParameters query).map fun (name, text) => (name, Text.terms text)) =
      some [some [("q", ["repo:firebase/firebase-cpp-sdk", "label:\"x\"", "repo:other/other",
        "label:\"y\"", "is:issue"])]] := by
  decide +kernel

end Client

end WorkflowKit.GitHub
