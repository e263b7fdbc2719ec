import WorkflowKit.Proofs.Json.Numerals

namespace WorkflowKit.Json

/-- What follows the first part of a bracketed text: the other parts, each after a comma, and the
bracket that ends it. -/
def commaTail (closing : Char) : List (List Char) → List Char
  | [] => [closing]
  | part :: parts => ',' :: part ++ commaTail closing parts

theorem bracketed_cons (opening closing : Char) (part : List Char) (parts : List (List Char)) :
    bracketed opening closing (part :: parts) = opening :: (part ++ commaTail closing parts) := by
  have tail : [','].intercalate (part :: parts) ++ [closing] = part ++ commaTail closing parts := by
    induction parts generalizing part with
    | nil => simp [commaTail]
    | cons next parts ih =>
      rw [List.intercalate_cons_cons, commaTail, List.append_assoc, ih, List.append_assoc]
      rfl
  rw [bracketed, List.cons_append, tail]

theorem ofChars_commaTail_cons (closing : Char) (part : List Char) (parts : List (List Char))
    (rest : Octets) :
    Octets.ofChars (commaTail closing (part :: parts)) ++ rest =
      octet ',' :: (Octets.ofChars part ++ (Octets.ofChars (commaTail closing parts) ++ rest)) := by
  rw [commaTail, List.cons_append, ofChars_cons_of_ascii (by decide), Octets.ofChars_append,
    List.cons_append, List.append_assoc]

theorem closed_commaTail {closing : Char} (closes : closing = ']' ∨ closing = '\x7d')
    (parts : List (List Char)) (rest : Octets) :
    Closed (Octets.ofChars (commaTail closing parts) ++ rest) := by
  cases parts with
  | nil =>
    rcases closes with rfl | rfl
    · exact closed_cons (b := octet ']') (by decide) (by decide) (by decide) rest
    · exact closed_cons (b := octet '\x7d') (by decide) (by decide) (by decide) rest
  | cons part parts =>
    rw [ofChars_commaTail_cons]
    exact closed_cons (by decide) (by decide) (by decide) _

theorem value_list {fuel allowed : Nat} (deep : 1 < allowed) (rest : Octets) :
    value (fuel + 1) allowed (octet '[' :: rest) =
      (items fuel (allowed - 1) 0 rest).map fun (values, after) => (.array values, after) := by
  have visible : afterSpace (octet '[' :: rest) = octet '[' :: rest :=
    afterSpace_of_not_isSpace (by decide) rest
  have noDigit : ¬ isDigit (octet '[') := by decide
  rw [value, visible]
  dsimp only
  rw [if_neg (by decide), if_neg (by decide), if_neg (by decide), if_neg (by decide),
    if_neg noDigit, if_neg (by decide), if_pos rfl, if_neg (by omega)]

theorem value_object {fuel allowed : Nat} (deep : 1 < allowed) (rest : Octets) :
    value (fuel + 1) allowed (octet '\x7b' :: rest) =
      (members fuel (allowed - 1) true rest).map fun (entries, after) =>
        (.ofMembers entries, after) := by
  have visible : afterSpace (octet '\x7b' :: rest) = octet '\x7b' :: rest :=
    afterSpace_of_not_isSpace (by decide) rest
  have noDigit : ¬ isDigit (octet '\x7b') := by decide
  rw [value, visible]
  dsimp only
  rw [if_neg (by decide), if_neg (by decide), if_neg (by decide), if_neg (by decide),
    if_neg noDigit, if_neg (by decide), if_neg (by decide), if_pos rfl, if_neg (by omega)]

/-- Holds of a text that is read as a value up to blanks at its end, with enough fuel. -/
def Reads (depth : Nat) (cs : List Char) (v : Json) : Prop :=
  ∀ (fuel allowed : Nat) {rest : Octets}, 2 * cs.length ≤ fuel → depth < allowed → Closed rest →
    ∃ after, Blanks after ∧
      value fuel allowed (Octets.ofChars cs ++ rest) = .ok (v, Octets.ofChars after ++ rest)

theorem nextItem_end {before : List Char} (blanks : Blanks before) (first : Bool) (rest : Octets) :
    nextItem first (Octets.ofChars before ++ octet ']' :: rest) = .ok (false, rest) := by
  rw [nextItem, afterSpace_blanks_cons blanks (by decide)]
  exact if_pos rfl

variable {depth : Nat} {cs : List Char} {v : Json}

theorem nextItem_first (begins : Begins cs) (rest : Octets) :
    nextItem true (Octets.ofChars cs ++ rest) = .ok (true, afterSpace (Octets.ofChars cs ++ rest)) := by
  obtain ⟨b, others, opening, start⟩ := begins.afterSpace rest
  obtain ⟨_, notEnd, _⟩ := opening.visible
  rw [nextItem, start]
  dsimp only
  rw [if_neg notEnd, if_pos rfl]

theorem nextItem_comma (begins : Begins cs) {before : List Char} (blanks : Blanks before)
    (rest : Octets) :
    nextItem false (Octets.ofChars before ++ octet ',' :: (Octets.ofChars cs ++ rest)) =
      .ok (true, afterSpace (Octets.ofChars cs ++ rest)) := by
  obtain ⟨b, others, opening, start⟩ := begins.afterSpace rest
  obtain ⟨_, notEnd, _⟩ := opening.visible
  have notClosing : octet ',' ≠ octet ']' := by decide
  rw [nextItem, afterSpace_blanks_cons blanks (by decide)]
  dsimp only
  rw [if_neg notClosing, if_neg Bool.false_ne_true, if_pos rfl, start]
  dsimp only
  rw [if_neg notEnd]

/-- The items after an item are read as they are in a list of their own. -/
theorem items_of_nextItem {fuel allowed index : Nat} {input more left rest : Octets}
    {others : List Json}
    (next : nextItem (index = 0) input = .ok (true, afterSpace (Octets.ofChars cs ++ more)))
    (item : value (fuel + 1) allowed (Octets.ofChars cs ++ more) = .ok (v, left))
    (later : items (fuel + 1) allowed (index + 1) left = .ok (others, rest)) :
    items (fuel + 2) allowed index input = .ok (v :: others, rest) := by
  simp only [items, next, Except.mapError, bind, Except.bind, if_true, value_afterSpace, item, later]

/-- The items after the first one are read up to the end of the list. -/
theorem items_commaTail {list : List (List Char × Json)}
    (begins : ∀ item ∈ list, Begins item.1)
    (reads : ∀ item ∈ list, Reads depth item.1 item.2) {before : List Char}
    (blanks : Blanks before) {fuel allowed index : Nat}
    (enough : 2 * (commaTail ']' (list.map (·.1))).length ≤ fuel) (deep : depth < allowed)
    (rest : Octets) :
    items fuel allowed (index + 1)
        (Octets.ofChars before ++ (Octets.ofChars (commaTail ']' (list.map (·.1))) ++ rest)) =
      .ok (list.map (·.2), rest) := by
  induction list generalizing before fuel index with
  | nil =>
    obtain ⟨fuel, rfl⟩ := Nat.exists_eq_succ_of_ne_zero (Nat.ne_zero_of_lt enough)
    have last : Octets.ofChars [']'] = [octet ']'] := rfl
    have later : decide (index + 1 = 0) = false := rfl
    rw [List.map_nil, commaTail, last, List.singleton_append, Json.items, later, nextItem_end blanks]
    rfl
  | cons item list ih =>
    obtain ⟨first, others⟩ := List.forall_mem_cons.mp begins
    obtain ⟨read, others'⟩ := List.forall_mem_cons.mp reads
    rw [List.map_cons, commaTail, List.length_append, List.length_cons] at enough
    obtain ⟨fuel, rfl⟩ : ∃ n, fuel = n + 2 := ⟨fuel - 2, by omega⟩
    obtain ⟨after, blanks', inside⟩ := read (fuel + 1) allowed (by omega) deep
      (closed_commaTail (.inl rfl) (list.map (·.1)) rest)
    have later : decide (index + 1 = 0) = false := rfl
    rw [List.map_cons, ofChars_commaTail_cons]
    refine items_of_nextItem (later ▸ nextItem_comma first blanks _) inside ?_
    exact ih others others' blanks' (by omega)

/-- A list whose items are read is read. -/
theorem reads_list {list : List (List Char × Json)} (nonempty : list ≠ [])
    (begins : ∀ item ∈ list, Begins item.1)
    (reads : ∀ item ∈ list, Reads depth item.1 item.2) :
    Reads (depth + 1) (bracketed '[' ']' (list.map (·.1))) (.array (list.map (·.2))) := by
  intro fuel allowed rest enough deep _
  cases list with
  | nil => exact absurd rfl nonempty
  | cons item list =>
    obtain ⟨first, others⟩ := List.forall_mem_cons.mp begins
    obtain ⟨read, others'⟩ := List.forall_mem_cons.mp reads
    rw [List.map_cons, bracketed_cons, List.length_cons, List.length_append] at enough
    have start : Octets.ofChars (bracketed '[' ']' ((item :: list).map (·.1))) ++ rest =
        octet '[' :: (Octets.ofChars item.1 ++
          (Octets.ofChars (commaTail ']' (list.map (·.1))) ++ rest)) := by
      rw [List.map_cons, bracketed_cons, ofChars_cons_of_ascii (by decide), Octets.ofChars_append,
        List.cons_append, List.append_assoc]
    have visible := first.length_pos
    obtain ⟨fuel, rfl⟩ : ∃ n, fuel = n + 3 := ⟨fuel - 3, by omega⟩
    obtain ⟨after, blanks, inside⟩ := read (fuel + 1) (allowed - 1) (by omega)
      (by omega) (closed_commaTail (.inl rfl) (list.map (·.1)) rest)
    have all : items (fuel + 2) (allowed - 1) 0 (Octets.ofChars item.1 ++
        (Octets.ofChars (commaTail ']' (list.map (·.1))) ++ rest)) =
          .ok ((item :: list).map (·.2), rest) :=
      items_of_nextItem (nextItem_first first _) inside
        (items_commaTail others others' blanks (by omega) (by omega) rest)
    refine ⟨[], List.forall_mem_nil _, ?_⟩
    rw [start, value_list (by omega), all]
    rfl

theorem nextName_quote {before : List Char} (blanks : Blanks before) (rest : Octets) :
    nextName true (Octets.ofChars before ++ octet '"' :: rest) = .ok (true, rest) := by
  rw [nextName, afterSpace_blanks_cons blanks (by decide)]
  dsimp only
  rw [if_neg (by decide), if_pos rfl, if_pos rfl]

theorem nextName_comma {before between : List Char} (blanks : Blanks before)
    (blanks' : Blanks between) (rest : Octets) :
    nextName false (Octets.ofChars before ++ octet ',' ::
      (Octets.ofChars between ++ octet '"' :: rest)) = .ok (true, rest) := by
  rw [nextName, afterSpace_blanks_cons blanks (by decide)]
  dsimp only
  rw [if_neg (by decide), if_neg Bool.false_ne_true, if_pos rfl,
    afterSpace_blanks_cons blanks' (by decide)]
  exact if_pos rfl

theorem nextName_end {before : List Char} (blanks : Blanks before) (first : Bool) (rest : Octets) :
    nextName first (Octets.ofChars before ++ octet '\x7d' :: rest) = .ok (false, rest) := by
  rw [nextName, afterSpace_blanks_cons blanks (by decide)]
  exact if_pos rfl

theorem memberName_of_textValue {first : Bool} {input rest after : Octets} {name : String}
    (next : nextName first input = .ok (true, rest)) (read : textValue rest = .ok (name, after)) :
    memberName first input = .ok (some name, after) := by
  simp only [memberName, next, bind, Except.bind, if_true, read, pure, Except.pure, Except.mapError]

theorem memberName_end {before : List Char} (blanks : Blanks before) (first : Bool)
    (rest : Octets) :
    memberName first (Octets.ofChars before ++ octet '\x7d' :: rest) = .ok (none, rest) := by
  rw [memberName, nextName_end blanks]
  rfl

namespace Member

variable {member : Member}

/-- The characters of a member after its name. -/
def afterName (member : Member) : List Char :=
  member.between ++ ':' :: member.text

/-- The octets of a member, whose name begins with a quote. -/
theorem octets_chars {body : List Char} (quoted : member.quoted = '"' :: body) (rest : Octets) :
    Octets.ofChars member.chars ++ rest = Octets.ofChars member.before ++
      octet '"' :: (Octets.ofChars body ++ (Octets.ofChars member.afterName ++ rest)) := by
  have split : member.chars = member.before ++ '"' :: (body ++ member.afterName) := by
    simp only [chars, quoted, afterName, List.append_assoc, List.cons_append]
  rw [split, Octets.ofChars_append, ofChars_cons_of_ascii (by decide), Octets.ofChars_append,
    List.append_assoc, List.cons_append, List.append_assoc]

/-- The name of a member is read however it is quoted. -/
theorem IsNamed.memberName (named : member.IsNamed) (rest : Octets) :
    memberName true (Octets.ofChars member.chars ++ rest) =
      .ok (some member.name, Octets.ofChars member.afterName ++ rest) := by
  obtain ⟨body, same, read⟩ := named.quoted.read
  rw [octets_chars same]
  exact memberName_of_textValue (nextName_quote named.before _) (read _)

theorem IsNamed.memberName_comma (named : member.IsNamed) {before : List Char}
    (blanks : Blanks before) (rest : Octets) :
    Json.memberName false (Octets.ofChars before ++ octet ',' ::
        (Octets.ofChars member.chars ++ rest)) =
      .ok (some member.name, Octets.ofChars member.afterName ++ rest) := by
  obtain ⟨body, same, read⟩ := named.quoted.read
  rw [octets_chars same]
  exact memberName_of_textValue (nextName_comma blanks named.before _) (read _)

theorem IsNamed.colon (named : member.IsNamed) (rest : Octets) :
    colon (Octets.ofChars member.afterName ++ rest) = .ok (Octets.ofChars member.text ++ rest) := by
  rw [afterName, Octets.ofChars_append, ofChars_cons_of_ascii (by decide), List.append_assoc,
    List.cons_append, Json.colon, afterSpace_blanks_cons named.between (by decide)]
  exact if_pos rfl

theorem length_text_lt (member : Member) : member.text.length < member.chars.length := by
  simp only [chars, List.length_append, List.length_cons]
  omega

end Member

/-- The members after a member are read as they are in an object of their own. -/
theorem members_of_memberName {fuel allowed : Nat} {first : Bool} {input left rest more : Octets}
    {member : Member} {others : List (String × Json)} (named : member.IsNamed)
    (next : memberName first input = .ok (some member.name, Octets.ofChars member.afterName ++ more))
    (item : value fuel allowed (Octets.ofChars member.text ++ more) = .ok (member.value, left))
    (later : members fuel allowed false left = .ok (others, rest)) :
    members (fuel + 1) allowed first input =
      .ok ((member.name, member.value) :: others, rest) := by
  simp only [members, next, bind, Except.bind, named.colon, item, Except.mapError, later]

/-- The members after the first one are read up to the end of the object. -/
theorem members_commaTail {list : List Member} (named : ∀ member ∈ list, member.IsNamed)
    (reads : ∀ member ∈ list, Reads depth member.text member.value) {before : List Char}
    (blanks : Blanks before) {fuel allowed : Nat}
    (enough : 2 * (commaTail '\x7d' (list.map Member.chars)).length ≤ fuel) (deep : depth < allowed)
    (rest : Octets) :
    members fuel allowed false
        (Octets.ofChars before ++ (Octets.ofChars (commaTail '\x7d' (list.map Member.chars)) ++ rest)) =
      .ok (list.map fun member => (member.name, member.value), rest) := by
  induction list generalizing before fuel with
  | nil =>
    obtain ⟨fuel, rfl⟩ := Nat.exists_eq_succ_of_ne_zero (Nat.ne_zero_of_lt enough)
    have last : Octets.ofChars ['\x7d'] = [octet '\x7d'] := rfl
    rw [List.map_nil, commaTail, last, List.singleton_append, members, memberName_end blanks]
    rfl
  | cons member list ih =>
    obtain ⟨first, others⟩ := List.forall_mem_cons.mp named
    obtain ⟨read, others'⟩ := List.forall_mem_cons.mp reads
    rw [List.map_cons, commaTail, List.length_append, List.length_cons] at enough
    have shorter := member.length_text_lt
    obtain ⟨fuel, rfl⟩ : ∃ n, fuel = n + 1 := ⟨fuel - 1, by omega⟩
    obtain ⟨after, blanks', inside⟩ := read fuel allowed (by omega) deep
      (closed_commaTail (.inr rfl) (list.map Member.chars) rest)
    rw [List.map_cons, ofChars_commaTail_cons]
    refine members_of_memberName first (first.memberName_comma blanks _) inside ?_
    exact ih others others' blanks' (by omega)

/-- An object whose members are read is read. -/
theorem reads_object {list : List Member} (nonempty : list ≠ [])
    (named : ∀ member ∈ list, member.IsNamed)
    (reads : ∀ member ∈ list, Reads depth member.text member.value) :
    Reads (depth + 1) (bracketed '\x7b' '\x7d' (list.map Member.chars))
      (.ofMembers (list.map fun member => (member.name, member.value))) := by
  intro fuel allowed rest enough deep _
  cases list with
  | nil => exact absurd rfl nonempty
  | cons member list =>
    obtain ⟨first, others⟩ := List.forall_mem_cons.mp named
    obtain ⟨read, others'⟩ := List.forall_mem_cons.mp reads
    rw [List.map_cons, bracketed_cons, List.length_cons, List.length_append] at enough
    have start : Octets.ofChars (bracketed '\x7b' '\x7d' ((member :: list).map Member.chars)) ++ rest =
        octet '\x7b' :: (Octets.ofChars member.chars ++
          (Octets.ofChars (commaTail '\x7d' (list.map Member.chars)) ++ rest)) := by
      rw [List.map_cons, bracketed_cons, ofChars_cons_of_ascii (by decide), Octets.ofChars_append,
        List.cons_append, List.append_assoc]
    have shorter := member.length_text_lt
    obtain ⟨fuel, rfl⟩ : ∃ n, fuel = n + 2 := ⟨fuel - 2, by omega⟩
    obtain ⟨after, blanks, inside⟩ := read fuel (allowed - 1) (by omega)
      (by omega) (closed_commaTail (.inr rfl) (list.map Member.chars) rest)
    have all : members (fuel + 1) (allowed - 1) true (Octets.ofChars member.chars ++
        (Octets.ofChars (commaTail '\x7d' (list.map Member.chars)) ++ rest)) =
          .ok ((member :: list).map fun member => (member.name, member.value), rest) :=
      members_of_memberName first (first.memberName _) inside
        (members_commaTail others others' blanks (by omega) (by omega) rest)
    refine ⟨[], List.forall_mem_nil _, ?_⟩
    rw [start, value_object (by omega), all]
    rfl

theorem word_chars (value : Json) {cs : List Char} (ascii : ∀ c ∈ cs, c.toNat < 0x80)
    (rest : Octets) : word value cs (Octets.ofChars cs ++ rest) = .ok (value, rest) := by
  induction cs with
  | nil => rfl
  | cons c cs ih =>
    obtain ⟨first, others⟩ := List.forall_mem_cons.mp ascii
    rw [ofChars_cons_of_ascii first, List.cons_append, word, if_pos rfl, ih others]

theorem value_null (fuel allowed : Nat) (rest : Octets) :
    value (fuel + 1) allowed (Octets.ofChars ['n', 'u', 'l', 'l'] ++ rest) = .ok (.null, rest) := by
  rw [ofChars_cons_of_ascii (by decide), List.cons_append, value,
    afterSpace_of_not_isSpace (by decide)]
  dsimp only
  rw [if_pos rfl, word_chars _ (by simp)]

theorem value_true (fuel allowed : Nat) (rest : Octets) :
    value (fuel + 1) allowed (Octets.ofChars ['t', 'r', 'u', 'e'] ++ rest) =
      .ok (.bool true, rest) := by
  rw [ofChars_cons_of_ascii (by decide), List.cons_append, value,
    afterSpace_of_not_isSpace (by decide)]
  dsimp only
  rw [if_neg (by decide), if_pos rfl, word_chars _ (by simp)]

theorem value_false (fuel allowed : Nat) (rest : Octets) :
    value (fuel + 1) allowed (Octets.ofChars ['f', 'a', 'l', 's', 'e'] ++ rest) =
      .ok (.bool false, rest) := by
  rw [ofChars_cons_of_ascii (by decide), List.cons_append, value,
    afterSpace_of_not_isSpace (by decide)]
  dsimp only
  rw [if_neg (by decide), if_neg (by decide), if_pos rfl, word_chars _ (by simp)]

theorem value_negative (fuel allowed : Nat) {input rest : Octets} {n : JsonNumber}
    (read : unsigned true input = .ok (n, rest)) :
    value (fuel + 1) allowed (octet '-' :: input) = .ok (.number n, rest) := by
  rw [value, afterSpace_of_not_isSpace (by decide)]
  dsimp only
  rw [if_neg (by decide), if_neg (by decide), if_neg (by decide), if_pos rfl, read]
  rfl

theorem value_digit (fuel allowed : Nat) {b : UInt8} (digit : isDigit b) {input rest : Octets}
    {n : JsonNumber} (read : unsigned false (b :: input) = .ok (n, rest)) :
    value (fuel + 1) allowed (b :: input) = .ok (.number n, rest) := by
  obtain ⟨visible, other⟩ := special_of_isDigit digit
  rw [value, afterSpace_of_not_isSpace visible]
  dsimp only
  rw [if_neg (other _ (by decide)), if_neg (other _ (by decide)), if_neg (other _ (by decide)),
    if_neg (other _ (by decide)), if_pos digit, read]
  rfl

theorem value_text (fuel allowed : Nat) {input rest : Octets} {s : String}
    (read : textValue input = .ok (s, rest)) :
    value (fuel + 1) allowed (octet '"' :: input) = .ok (.text s, rest) := by
  have noDigit : ¬ isDigit (octet '"') := by decide
  rw [value, afterSpace_of_not_isSpace (by decide)]
  dsimp only
  rw [if_neg (by decide), if_neg (by decide), if_neg (by decide), if_neg (by decide),
    if_neg noDigit, if_pos rfl, read]
  rfl

theorem value_emptyList (fuel : Nat) {allowed : Nat} (deep : 1 < allowed) {inside : List Char}
    (blanks : Blanks inside) (rest : Octets) :
    value (fuel + 2) allowed (octet '[' :: (Octets.ofChars inside ++ octet ']' :: rest)) =
      .ok (.array [], rest) := by
  have first : decide (0 = 0) = true := rfl
  rw [value_list deep, items, first, nextItem_end blanks]
  rfl

theorem value_emptyObject (fuel : Nat) {allowed : Nat} (deep : 1 < allowed) {inside : List Char}
    (blanks : Blanks inside) (rest : Octets) :
    value (fuel + 2) allowed (octet '\x7b' :: (Octets.ofChars inside ++ octet '\x7d' :: rest)) =
      .ok (.ofMembers [], rest) := by
  rw [value_object deep, members, memberName_end blanks]
  rfl

theorem Closed.blanks {after : List Char} (blanks : Blanks after) {rest : Octets}
    (closed : Closed rest) : Closed (Octets.ofChars after ++ rest) := by
  cases after with
  | nil => exact closed
  | cons c cs =>
    have first := (List.forall_mem_cons.mp blanks).1
    have each : ∀ c ∈ [' ', '\n', '\t', '\r'], c.toNat < 0x80 ∧
        ¬ isDigit (octet c) ∧ octet c ≠ octet '.' ∧ ¬ startsExponent (octet c) :=
      List.all_iff_forall_prop.mp (by decide)
    obtain ⟨ascii, notDigit, notPoint, notExponent⟩ := each c first
    rw [ofChars_cons_of_ascii ascii]
    exact closed_cons notDigit notPoint notExponent _

/-- A value that takes no more than one unit of fuel is read up to its end. -/
theorem reads_of_value (visible : 0 < cs.length)
    (read : ∀ fuel allowed rest, Closed rest →
      value (fuel + 1) allowed (Octets.ofChars cs ++ rest) = .ok (v, rest)) : Reads depth cs v := by
  intro fuel allowed rest enough _ closed
  obtain ⟨fuel, rfl⟩ : ∃ n, fuel = n + 1 := ⟨fuel - 1, by omega⟩
  exact ⟨[], List.forall_mem_nil _, read fuel allowed rest closed⟩

theorem reads_number {n : JsonNumber} (numeral : Numeral cs n) : Reads depth cs (.number n) := by
  refine reads_of_value numeral.begins.length_pos fun fuel allowed rest closed => ?_
  obtain ⟨negative, magnitude, rfl, digit, nonempty, read⟩ := numeral.unsigned
  cases negative with
  | true =>
    rw [if_pos rfl, ofChars_cons_of_ascii (by decide), List.cons_append]
    exact value_negative fuel allowed (read rest closed)
  | false =>
    rw [if_neg Bool.false_ne_true]
    have read := read rest closed
    cases magnitude with
    | nil => exact absurd rfl nonempty
    | cons d ds =>
      obtain ⟨ascii, isDigit, _⟩ := isDigit_of_digit (digit d rfl)
      rw [ofChars_cons_of_ascii ascii, List.cons_append] at read ⊢
      exact value_digit fuel allowed isDigit read

theorem reads_text {s : String} (quotes : Quotes s cs) : Reads depth cs (.text s) := by
  obtain ⟨body, rfl, read⟩ := quotes.read
  refine reads_of_value (Nat.zero_lt_succ _) fun fuel allowed rest _ => ?_
  rw [ofChars_cons_of_ascii (by decide), List.cons_append]
  exact value_text fuel allowed (read rest)

theorem Reads.blanks (reads : Reads depth cs v) (visible : 0 < cs.length)
    {before after : List Char} (first : Blanks before) (last : Blanks after) :
    Reads depth (before ++ cs ++ after) v := by
  intro fuel allowed rest enough deep closed
  rw [List.length_append, List.length_append] at enough
  obtain ⟨fuel, rfl⟩ : ∃ n, fuel = n + 1 := ⟨fuel - 1, by omega⟩
  obtain ⟨left, blanks, read⟩ := reads (fuel + 1) allowed (by omega) deep (closed.blanks last)
  refine ⟨left ++ after, blanks.append last, ?_⟩
  rw [List.append_assoc, Octets.ofChars_append, Octets.ofChars_append, List.append_assoc,
    List.append_assoc, ← value_afterSpace, afterSpace_blanks first, value_afterSpace, read,
    Octets.ofChars_append, List.append_assoc]

/-- Brackets with nothing but blanks inside take two units of fuel. -/
theorem reads_empty {opening closing : Char} (ascii : opening.toNat < 0x80)
    (ascii' : closing.toNat < 0x80) {inside : List Char}
    (read : ∀ fuel allowed rest, 1 < allowed →
      value (fuel + 2) allowed (octet opening :: (Octets.ofChars inside ++ octet closing :: rest)) =
        .ok (v, rest)) : Reads (depth + 1) (opening :: inside ++ [closing]) v := by
  intro fuel allowed rest enough deep _
  rw [List.cons_append, List.length_cons, List.length_append, List.length_singleton] at enough
  obtain ⟨fuel, rfl⟩ : ∃ n, fuel = n + 2 := ⟨fuel - 2, by omega⟩
  refine ⟨[], List.forall_mem_nil _, ?_⟩
  rw [List.cons_append, ofChars_cons_of_ascii ascii, Octets.ofChars_append,
    ofChars_cons_of_ascii ascii', List.cons_append, List.append_assoc]
  exact read fuel allowed rest (by omega)

/-- A text that spells a value is read as this value. -/
theorem Spelled.reads (spelled : Spelled Numeral depth cs v) : Reads depth cs v := by
  induction spelled with
  | null => exact reads_of_value (by decide) fun fuel allowed rest _ => value_null fuel allowed rest
  | true => exact reads_of_value (by decide) fun fuel allowed rest _ => value_true fuel allowed rest
  | false => exact reads_of_value (by decide) fun fuel allowed rest _ => value_false fuel allowed rest
  | number numeral => exact reads_number numeral
  | text quotes => exact reads_text quotes
  | blanks first spelled last ih =>
    exact ih.blanks (spelled.begins fun _ _ => Numeral.begins).length_pos first last
  | emptyList blanks =>
    exact reads_empty (by decide) (by decide) fun fuel _ rest deep =>
      value_emptyList fuel deep blanks rest
  | list items nonempty spelled ih =>
    exact reads_list nonempty
      (fun item listed => (spelled item listed).begins fun _ _ => Numeral.begins) ih
  | emptyObject blanks =>
    exact reads_empty (by decide) (by decide) fun fuel _ rest deep =>
      value_emptyObject fuel deep blanks rest
  | object members nonempty named _ ih => exact reads_object nonempty named ih

/-- Every text that encodes a value is read as this value. -/
theorem Encodes.reads (encodes : Encodes depth cs v) : Reads depth cs v :=
  encodes.spelled.reads

/-- What is read of a whole text, with blanks perhaps left at its end. -/
theorem Reads.valueAtStart (reads : Reads depth cs v) {allowed : Nat} (deep : depth < allowed) :
    ∃ after, Blanks after ∧
      valueAtStart allowed (Octets.ofChars cs) = .ok (v, Octets.ofChars after) := by
  have longer := Octets.length_le_length_ofChars cs
  have enough : 2 * cs.length ≤ fuelFor (Octets.ofChars cs) := by
    rw [fuelFor]
    omega
  obtain ⟨after, blanks, read⟩ := reads _ _ enough deep closed_nil
  rw [List.append_nil, List.append_nil] at read
  exact ⟨after, blanks, read⟩

theorem Reads.readTo (reads : Reads depth cs v) {allowed : Nat} (deep : depth < allowed) :
    readTo allowed (Octets.ofChars cs) = .ok v := by
  obtain ⟨after, blanks, read⟩ := reads.valueAtStart deep
  rw [Json.readTo, read, Except.bind, complete, afterSpace_ofChars blanks]
  rfl

/-- The depth that is allowed must exceed that of the text, and nothing else matters. -/
theorem Encodes.readTo (encodes : Encodes depth cs v) {allowed : Nat} (deep : depth < allowed) :
    readTo allowed (Octets.ofChars cs) = .ok v :=
  encodes.reads.readTo deep

theorem Encodes.read (encodes : Encodes depth cs v) (deep : depth < usualDepth) :
    Json.read (Octets.ofChars cs) = .ok v :=
  encodes.readTo deep

theorem Encodes.readFirst (encodes : Encodes depth cs v) (deep : depth < usualDepth) :
    Json.readFirst (Octets.ofChars cs) = .ok v := by
  obtain ⟨after, blanks, read⟩ := encodes.reads.valueAtStart deep
  rw [Json.readFirst, read]
  rfl

/-- A text encodes no two values. -/
theorem Encodes.unique {other : Nat} {w : Json} (encodes : Encodes depth cs v)
    (encodes' : Encodes other cs w) : v = w := by
  have first := encodes.readTo (Nat.lt_succ_of_le (Nat.le_max_left depth other))
  have second := encodes'.readTo (Nat.lt_succ_of_le (Nat.le_max_right depth other))
  exact Except.ok.inj (first.symm.trans second)

end WorkflowKit.Json
