import WorkflowKit.Http.Uri
import WorkflowKit.Proofs.Except
import WorkflowKit.Proofs.List
import WorkflowKit.Proofs.Text.Pieces
import Mathlib.Data.Bool.AllAny
import Mathlib.Data.List.TakeWhile

namespace WorkflowKit.Http.Uri

/-- The path through some places, each after a slash. -/
def pathText (parts : List String) : String :=
  String.ofList (parts.flatMap fun part => '/' :: part.toList)

/-- Holds of a text that can be one place of a path. -/
def IsPlace (part : String) : Prop :=
  ∀ c ∈ part.toList, isPathChar c ∧ c ≠ '/'

instance (part : String) : Decidable (IsPlace part) :=
  decidable_of_iff (part.toList.all fun c => isPathChar c ∧ c ≠ '/') List.all_iff_forall_prop

theorem toList_pathText (parts : List String) :
    (pathText parts).toList = parts.flatMap fun part => '/' :: part.toList :=
  String.toList_ofList

theorem isPathChar_of_mem_pathText {parts : List String} (places : ∀ part ∈ parts, IsPlace part) :
    ∀ c ∈ (pathText parts).toList, isPathChar c := by
  intro c member
  rw [toList_pathText] at member
  obtain ⟨part, listed, inside⟩ := List.mem_flatMap.mp member
  rcases List.mem_cons.mp inside with rfl | inside
  · decide
  · exact (places part listed c inside).1

theorem pathText_eq_joined (parts : List String) :
    pathText parts = Text.joined '/' ("" :: parts) := by
  have after (first : List Char) : first ++ parts.flatMap (fun part => '/' :: part.toList) =
      ['/'].intercalate (first :: parts.map String.toList) := by
    induction parts generalizing first with
    | nil => simp
    | cons part parts ih =>
      rw [List.flatMap_cons, List.map_cons, List.intercalate_cons_cons, ← ih]
      simp
  rw [Text.joined, List.map_cons, ← after]
  rfl

/-- The places of a path can be told from it. -/
theorem pathText_inj {parts others : List String} (places : ∀ part ∈ parts, IsPlace part)
    (places' : ∀ part ∈ others, IsPlace part) (same : pathText parts = pathText others) :
    parts = others := by
  have free {parts : List String} (places : ∀ part ∈ parts, IsPlace part) :
      ∀ part ∈ "" :: parts, '/' ∉ part.toList := by
    refine List.forall_mem_cons.mpr ⟨by simp, fun part listed member => ?_⟩
    exact (places part listed '/' member).2 rfl
  rw [pathText_eq_joined, pathText_eq_joined] at same
  have pieces := congrArg (Text.pieces '/') same
  rw [Text.pieces_joined (free places) (List.cons_ne_nil _ _),
    Text.pieces_joined (free places') (List.cons_ne_nil _ _)] at pieces
  exact List.tail_eq_of_cons_eq pieces

/-- A path has no question mark, so that a query after it can be told apart. -/
theorem question_not_mem_pathText {parts : List String} (places : ∀ part ∈ parts, IsPlace part) :
    '?' ∉ (pathText parts).toList := fun member =>
  absurd (isPathChar_of_mem_pathText places '?' member) (by decide)

theorem toList_pathText_query (parts : List String) (query : String) :
    (pathText parts ++ "?" ++ query).toList = (pathText parts).toList ++ '?' :: query.toList := by
  simp

/-- Plain places hold no question mark, so a path with a query is no path without one. -/
theorem pathText_ne_query {parts : List String} (places : ∀ part ∈ parts, IsPlace part)
    (others : List String) (query : String) : pathText parts ≠ pathText others ++ "?" ++ query := by
  intro same
  refine question_not_mem_pathText places ?_
  rw [same, toList_pathText_query]
  exact List.mem_append_right _ List.mem_cons_self

/-- The places of a path and the query after it can be told from both together. -/
theorem pathText_query_inj {parts others : List String} {query query' : String}
    (places : ∀ part ∈ parts, IsPlace part) (places' : ∀ part ∈ others, IsPlace part)
    (same : pathText parts ++ "?" ++ query = pathText others ++ "?" ++ query') :
    parts = others ∧ query = query' := by
  have texts := congrArg String.toList same
  rw [toList_pathText_query, toList_pathText_query] at texts
  obtain ⟨paths, queries⟩ := List.eq_of_append_cons_eq (question_not_mem_pathText places)
    (question_not_mem_pathText places') texts
  exact ⟨pathText_inj places places' (String.toList_inj.mp paths), String.toList_inj.mp queries⟩

/-- Neither a question mark nor a number sign is a character of a path. -/
theorem inside_of_isPathChar {c : Char} (plain : isPathChar c) : (c ≠ '?' && c ≠ '#') = true := by
  have question : isPathChar '?' = false := by decide
  have sign : isPathChar '#' = false := by decide
  have notQuestion : c ≠ '?' := by
    rintro rfl
    rw [question] at plain
    cases plain
  have notSign : c ≠ '#' := by
    rintro rfl
    rw [sign] at plain
    cases plain
  simp [notQuestion, notSign]

theorem parsePath_path {path : List Char} (plain : ∀ c ∈ path, isPathChar c) :
    parsePath path = .ok (String.ofList path, none) := by
  have inside : ∀ c ∈ path, (c ≠ '?' && c ≠ '#') = true :=
    fun c member => inside_of_isPathChar (plain c member)
  have whole : path.takeWhile (fun c => c ≠ '?' && c ≠ '#') = path :=
    List.takeWhile_eq_self_iff.mpr inside
  have left : path.dropWhile (fun c => c ≠ '?' && c ≠ '#') = [] :=
    List.dropWhile_eq_nil_iff.mpr inside
  have all : path.all isPathChar = true := List.all_eq_true.mpr plain
  simp only [parsePath, whole, left, all, Bool.not_true, Bool.false_eq_true, if_false]

/-- The first question mark ends a path, and what follows it is the query. -/
theorem parsePath_query {path query : List Char} (plain : ∀ c ∈ path, isPathChar c)
    (plain' : ∀ c ∈ query, isQueryChar c ∧ c ≠ '#') :
    parsePath (path ++ '?' :: query) =
      .ok (String.ofList path, some (String.ofList query)) := by
  have inside : ∀ c ∈ path, (c ≠ '?' && c ≠ '#') = true :=
    fun c member => inside_of_isPathChar (plain c member)
  have before : (path ++ '?' :: query).takeWhile (fun c => c ≠ '?' && c ≠ '#') = path := by
    rw [List.takeWhile_append_of_pos inside, List.takeWhile_cons_of_neg (by decide), List.append_nil]
  have after : (path ++ '?' :: query).dropWhile (fun c => c ≠ '?' && c ≠ '#') = '?' :: query := by
    rw [List.dropWhile_append_of_pos inside, List.dropWhile_cons_of_neg (by decide)]
  have all : path.all isPathChar = true := List.all_eq_true.mpr plain
  have unmarked : query.takeWhile (· ≠ '#') = query :=
    List.takeWhile_eq_self_iff.mpr fun c member => decide_eq_true (plain' c member).2
  have all' : query.all isQueryChar = true :=
    List.all_eq_true.mpr fun c member => (plain' c member).1
  simp only [parsePath, before, after, all, unmarked, all', Bool.not_true, Bool.false_eq_true,
    if_false]

/-- A text that begins with a path from the root is a reference below another address. -/
theorem parse_of_pathText {text : String} {parts : List String} (nonempty : parts ≠ [])
    {left : List Char} (start : text.toList = (pathText parts).toList ++ left)
    (short : text.utf8ByteSize ≤ lengthLimit) {query : Option String}
    (read : parsePath text.toList = .ok (pathText parts, query)) :
    parse text = .ok ⟨none, none, pathText parts, query⟩ ∧ pathText parts ≠ "" := by
  cases parts with
  | nil => exact absurd rfl nonempty
  | cons part parts =>
    have slash : (pathText (part :: parts)).toList =
        '/' :: (part.toList ++ (pathText parts).toList) := by
      rw [toList_pathText, toList_pathText, List.flatMap_cons, List.cons_append]
    rw [slash, List.cons_append] at start
    refine ⟨?_, fun none => ?_⟩
    · rw [start] at read
      simp only [parse, Nat.not_lt.mpr short, if_false, start, read, bind, Except.bind]
    · rw [none] at slash
      cases slash

/-- A path from the root is a reference to itself. -/
theorem parse_pathText {parts : List String} (nonempty : parts ≠ [])
    (places : ∀ part ∈ parts, IsPlace part) (short : (pathText parts).utf8ByteSize ≤ lengthLimit) :
    parse (pathText parts) = .ok ⟨none, none, pathText parts, none⟩ ∧ pathText parts ≠ "" := by
  have read := parsePath_path (isPathChar_of_mem_pathText places)
  rw [String.ofList_toList] at read
  exact parse_of_pathText nonempty (List.append_nil _).symm short read

theorem parse_pathText_query {parts : List String} {query : String} (nonempty : parts ≠ [])
    (places : ∀ part ∈ parts, IsPlace part) (plain : ∀ c ∈ query.toList, isQueryChar c ∧ c ≠ '#')
    (short : (pathText parts ++ "?" ++ query).utf8ByteSize ≤ lengthLimit) :
    parse (pathText parts ++ "?" ++ query) = .ok ⟨none, none, pathText parts, some query⟩ ∧
      pathText parts ≠ "" := by
  have read := parsePath_query (isPathChar_of_mem_pathText places) plain
  rw [← toList_pathText_query, String.ofList_toList, String.ofList_toList] at read
  exact parse_of_pathText nonempty (toList_pathText_query parts query) short read

theorem parse_of_tooLong {text : String} (long : lengthLimit < text.utf8ByteSize) :
    parse text = .error .tooLong := by
  simp only [parse, long, if_true]

theorem isPathChar_of_parsePath {cs : List Char} {path : String} {query : Option String}
    (read : parsePath cs = .ok (path, query)) : ∀ c ∈ path.toList, isPathChar c := by
  simp only [parsePath] at read
  split at read
  · cases read
  · rename_i plain
    have inside : ∀ c ∈ cs.takeWhile fun c => c ≠ '?' && c ≠ '#', isPathChar c := by
      simpa using plain
    split at read
    · split at read
      · cases read
      · cases read
        rwa [String.toList_ofList]
    · cases read
      rwa [String.toList_ofList]

/-- The path of an address has neither a query nor a fragment in it. -/
theorem isPathChar_of_parse {text : String} {uri : Uri} (parsed : parse text = .ok uri) :
    ∀ c ∈ uri.path.toList, isPathChar c := by
  unfold parse at parsed
  split at parsed
  · cases parsed
  · split at parsed
    · cases parsed
    · cases parsed
      exact List.forall_mem_singleton.mpr (by decide)
    · obtain ⟨⟨path, query⟩, read, parsed⟩ := Except.bind_eq_ok_iff.mp parsed
      cases parsed
      exact isPathChar_of_parsePath read
    · obtain ⟨⟨scheme, rest⟩, _, parsed⟩ := Except.bind_eq_ok_iff.mp parsed
      obtain ⟨_, _, parsed⟩ := Except.bind_eq_ok_iff.mp parsed
      split at parsed
      · split at parsed
        · cases parsed
          simp
        · cases parsed
      · split at parsed
        · cases parsed
        · obtain ⟨⟨path, query⟩, read, parsed⟩ := Except.bind_eq_ok_iff.mp parsed
          cases parsed
          exact isPathChar_of_parsePath read

/-- A path from the root, or such a path and a query. -/
inductive IsRoute : String → Prop
  | path {parts : List String} :
      parts ≠ [] → (∀ part ∈ parts, IsPlace part) → IsRoute (pathText parts)
  | query {parts : List String} {query : String} :
      parts ≠ [] → (∀ part ∈ parts, IsPlace part) →
        (∀ c ∈ query.toList, isQueryChar c ∧ c ≠ '#') → IsRoute (pathText parts ++ "?" ++ query)

/-- A route that is not too long is a reference to its own path and query. -/
theorem IsRoute.parse {route : String} (isRoute : IsRoute route)
    (short : route.utf8ByteSize ≤ lengthLimit) :
    ∃ reference, parse route = .ok reference ∧ reference.authority = none ∧
      reference.path ≠ "" ∧ reference.target = route := by
  cases isRoute with
  | path nonempty places =>
    obtain ⟨parsed, visible⟩ := parse_pathText nonempty places short
    exact ⟨_, parsed, rfl, visible, by simp [target, visible]⟩
  | query nonempty places plain =>
    obtain ⟨parsed, visible⟩ := parse_pathText_query nonempty places plain short
    exact ⟨_, parsed, rfl, visible, by simp [target, visible, String.append_assoc]⟩

/-- An address that consists of a scheme, a server, perhaps with a port, and at most one slash. -/
structure IsPlain (address scheme server : String) : Prop where
  text : address = scheme ++ "://" ++ server ∨ address = scheme ++ "://" ++ server ++ "/"
  named : scheme ≠ ""
  scheme : ∀ c ∈ scheme.toList, isSchemeChar c
  server : ∀ c ∈ server.toList, endsAuthority c = false

namespace IsPlain

variable {address scheme server : String}

theorem toList (plain : IsPlain address scheme server) :
    ∃ slash, (slash = [] ∨ slash = ['/']) ∧
      address.toList = scheme.toList ++ ':' :: '/' :: '/' :: (server.toList ++ slash) := by
  rcases plain.text with rfl | rfl
  · exact ⟨[], Or.inl rfl, by simp⟩
  · exact ⟨['/'], Or.inr rfl, by simp⟩

theorem splitScheme (plain : IsPlain address scheme server) (rest : List Char) {name : Option String}
    {left : List Char}
    (split : splitScheme (scheme.toList ++ ':' :: '/' :: '/' :: rest) = .ok (name, left)) :
    name.isSome ∧ left = rest := by
  have before : (scheme.toList ++ ':' :: '/' :: '/' :: rest).takeWhile isSchemeChar =
      scheme.toList := by
    rw [List.takeWhile_append_of_pos plain.scheme, List.takeWhile_cons_of_neg (by decide),
      List.append_nil]
  have after : (scheme.toList ++ ':' :: '/' :: '/' :: rest).dropWhile isSchemeChar =
      ':' :: '/' :: '/' :: rest := by
    rw [List.dropWhile_append_of_pos plain.scheme, List.dropWhile_cons_of_neg (by decide)]
  have marked : [':', '/', '/'].isPrefixOf (':' :: '/' :: '/' :: rest) = true := by
    simp
  simp only [Uri.splitScheme, before, after, marked, if_true] at split
  split at split
  · cases split
  · cases split
    exact ⟨rfl, rfl⟩

theorem authority (plain : IsPlain address scheme server) {slash : List Char}
    (slashes : slash = [] ∨ slash = ['/']) :
    (server.toList ++ slash).takeWhile (fun c => !endsAuthority c) = server.toList ∧
      (server.toList ++ slash).dropWhile (fun c => !endsAuthority c) = slash := by
  have inside : ∀ c ∈ server.toList, (!endsAuthority c) = true := fun c member => by
    rw [plain.server c member]
    rfl
  rw [List.takeWhile_append_of_pos inside, List.dropWhile_append_of_pos inside]
  rcases slashes with rfl | rfl <;> simp [endsAuthority]

/-- A plain address names its server and no place there. -/
theorem base (plain : IsPlain address scheme server) {base : Uri}
    (parsed : parse address = .ok base) :
    base.scheme.isSome ∧ base.authority = some server ∧ (base.path = "" ∨ base.path = "/") := by
  obtain ⟨slash, slashes, chars⟩ := plain.toList
  obtain ⟨authority, path⟩ := plain.authority slashes
  cases first : scheme.toList with
  | nil => exact absurd (String.toList_eq_nil_iff.mp first) plain.named
  | cons c more =>
    have other : isSchemeChar c := plain.scheme c (first ▸ List.mem_cons_self)
    unfold parse at parsed
    split at parsed
    · cases parsed
    · rw [chars, first, List.cons_append] at parsed
      split at parsed
      -- Neither an empty address nor one that begins with a star or a slash has a scheme.
      · rename_i none
        cases none
      · rename_i star
        simp at star
      · rename_i slash
        obtain ⟨rfl, _⟩ := List.cons.inj slash
        exact absurd other (by decide)
      · rw [← List.cons_append, ← first] at parsed
        obtain ⟨⟨name, left⟩, split, parsed⟩ := Except.bind_eq_ok_iff.mp parsed
        obtain ⟨named, rfl⟩ := plain.splitScheme _ split
        obtain ⟨name, rfl⟩ := Option.isSome_iff_exists.mp named
        dsimp only at parsed
        rw [authority, path] at parsed
        obtain ⟨_, _, parsed⟩ := Except.bind_eq_ok_iff.mp parsed
        split at parsed
        · cases parsed
        · obtain ⟨⟨place, query⟩, read, parsed⟩ := Except.bind_eq_ok_iff.mp parsed
          cases parsed
          refine ⟨rfl, congrArg some String.ofList_toList, ?_⟩
          rcases slashes with rfl | rfl
          · cases read
            exact Or.inl rfl
          · cases read
            exact Or.inr rfl

end IsPlain

end WorkflowKit.Http.Uri
