import WorkflowKit.Json.Passing
import WorkflowKit.Proofs.Json.Decoding

namespace WorkflowKit.Json

theorem passText_plain {bs : Octets}
    (plain : ∀ b ∈ bs, b ≠ octet '"' ∧ b ≠ octet '\\' ∧ 0x20 ≤ b.toNat) (rest : Octets) :
    passText (bs ++ rest) = passText rest := by
  induction bs with
  | nil => rfl
  | cons b bs ih =>
    obtain ⟨⟨notQuote, notBackslash, least⟩, others⟩ := List.forall_mem_cons.mp plain
    have notControl : ¬ b < 0x20 := by
      rw [UInt8.lt_iff_toNat_lt]
      exact Nat.not_lt.mpr least
    rw [List.cons_append, passText, if_neg notQuote, if_neg notBackslash, if_neg notControl,
      ih others]

theorem passText_of_escape {input rest : Octets} {width : Nat}
    (wide : escapeWidth input = .ok width) (left : input.drop width = rest) :
    passText (octet '\\' :: input) = passText rest := by
  have notQuote : ¬ octet '\\' = octet '"' := by decide
  rw [passText, if_neg notQuote, if_pos rfl, wide]
  dsimp only
  rw [left]

theorem passText_of_form {ds : List Char} {n : Nat} (form : HexForm ds n) (rest : Octets) :
    passText (octet '\\' :: octet 'u' :: (Octets.ofChars ds ++ rest)) = passText rest := by
  obtain ⟨a, b, c, d, octets, number⟩ := form.read rest
  have noShort : ¬ (shortEscape (octet 'u')).isSome := by decide
  have wide : escapeWidth (octet 'u' :: (Octets.ofChars ds ++ rest)) = .ok 5 := by
    rw [escapeWidth, if_neg noShort, if_pos rfl, octets]
    simp only [List.cons_append, List.nil_append, number, Except.map]
  refine passText_of_escape wide ?_
  rw [octets]
  rfl

theorem passText_of_spells {part : List Char} {c : Char} (spells : Spells part c) (rest : Octets) :
    passText (Octets.ofChars part ++ rest) = passText rest := by
  cases spells with
  | plain least notQuote notBackslash =>
    rw [Octets.ofChars_cons, Octets.ofChars_nil, List.append_nil]
    exact passText_plain (fun b => plain_of_mem_encoded least notQuote notBackslash) rest
  | @short letter _ listed =>
    obtain ⟨ascii, stands⟩ := shortEscape_of_mem listed
    rw [ofChars_cons_of_ascii (by decide), ofChars_cons_of_ascii ascii, Octets.ofChars_nil]
    have wide : escapeWidth (octet letter :: rest) = .ok 1 := by
      rw [escapeWidth, stands]
      rfl
    exact passText_of_escape wide rfl
  | @number ds _ form =>
    rw [ofChars_cons_of_ascii (by decide), ofChars_cons_of_ascii (by decide)]
    exact passText_of_form form rest
  | @pair high low h l _ first second =>
    rw [List.cons_append, List.cons_append, ofChars_cons_of_ascii (by decide),
      ofChars_cons_of_ascii (by decide), Octets.ofChars_append, List.cons_append, List.cons_append,
      List.append_assoc, passText_of_form first, ofChars_cons_of_ascii (by decide),
      ofChars_cons_of_ascii (by decide)]
    exact passText_of_form second rest

/-- A quoted text is passed over, however its characters are spelled. -/
theorem passText_of_spellsAll {cs ds : List Char} (spells : SpellsAll cs ds) (rest : Octets) :
    passText (Octets.ofChars cs ++ octet '"' :: rest) = .ok rest := by
  induction spells with
  | nil => rw [Octets.ofChars_nil, List.nil_append, passText, if_pos rfl]
  | cons first _ ih =>
    rw [Octets.ofChars_append, List.append_assoc, passText_of_spells first, ih]

/-- What follows the first quote of a text is passed up to the last one. -/
theorem Quotes.pass {s : String} {cs : List Char} (quotes : Quotes s cs) :
    ∃ body, cs = '"' :: body ∧ ∀ rest, passText (Octets.ofChars body ++ rest) = .ok rest := by
  cases quotes with
  | @quoted inside spells =>
    refine ⟨inside ++ ['"'], rfl, fun rest => ?_⟩
    have last : Octets.ofChars ['"'] = [octet '"'] := rfl
    rw [Octets.ofChars_append, last, List.append_assoc, List.singleton_append,
      passText_of_spellsAll spells]

theorem passNumber_digits {ds : List Char} (whole : Whole ds) {rest : Octets}
    (closed : Closed rest) : passNumber (Octets.ofChars ds ++ rest) = .ok rest := by
  cases ds with
  | nil => exact absurd rfl whole.nonempty
  | cons d ds =>
    obtain ⟨first, others⟩ := List.forall_mem_cons.mp whole.all
    have digit := (isDigit_of_digit first).2.1
    have left := (span_digits others closed.noDigit).2
    rw [ofChars_digits whole.all, List.map_cons, List.cons_append, passNumber,
      if_neg (not_not.mpr digit), if_neg (whole.no_digit_after_zero closed.noDigit), left]
    cases rest with
    | nil => rfl
    | cons b rest =>
      obtain ⟨_, notPoint, notExponent⟩ := closed b rfl
      dsimp only
      rw [if_neg notPoint, passExponentIfAny, if_neg notExponent]

/-- Goes on in the brackets that are open, of which the innermost is fresh or not. -/
def passOn (fresh : Bool) (fuel : Nat) (brackets : List Bracket) (input : Octets) :
    Except Stop Octets := do
  let (brackets, rest) ← passEnds fresh brackets input
  match brackets with
  | [] => .ok rest
  | bracket :: _ => passFrom fuel brackets (← passName bracket rest)

theorem passFrom_of_start {brackets brackets' : List Bracket} {input rest : Octets} {fresh : Bool}
    (start : passStart brackets (afterSpace input) = .ok (fresh, brackets', rest)) (fuel : Nat) :
    passFrom (fuel + 1) brackets input = passOn fresh fuel brackets' rest := by
  rw [passFrom, start]
  rfl

theorem passFrom_congr {input other : Octets} (same : afterSpace input = afterSpace other)
    (fuel : Nat) (brackets : List Bracket) :
    passFrom (fuel + 1) brackets input = passFrom (fuel + 1) brackets other := by
  rw [passFrom, passFrom, same]

theorem passOn_nil (fuel : Nat) (rest : Octets) : passOn false fuel [] rest = .ok rest := rfl

/-- A part in brackets: the name of a member, if the brackets have names, and a value. -/
def passPart (fuel : Nat) (bracket : Bracket) (outer : List Bracket) (input : Octets) :
    Except Stop Octets := do
  passFrom fuel (bracket :: outer) (← passName bracket input)

variable {bracket : Bracket}

theorem passPart_afterSpace (fuel : Nat) (bracket : Bracket) (outer : List Bracket)
    (input : Octets) :
    passPart (fuel + 1) bracket outer (afterSpace input) = passPart (fuel + 1) bracket outer input := by
  cases bracket with
  | list => exact passFrom_congr (afterSpace_afterSpace input) fuel _
  | object => rw [passPart, passPart, passName, passName, afterSpace_afterSpace]

theorem passOn_end {before : List Char} (blanks : Blanks before) (fresh : Bool) (fuel : Nat)
    (outer : List Bracket) (rest : Octets) :
    passOn fresh fuel (bracket :: outer) (Octets.ofChars before ++ bracket.closing :: rest) =
      passOn false fuel outer rest := by
  have visible : ¬ isSpace bracket.closing := by cases bracket <;> decide
  rw [passOn, passEnds, afterSpace_blanks_cons blanks visible]
  dsimp only
  rw [if_pos rfl]
  rfl

theorem passOn_comma {before : List Char} (blanks : Blanks before) (fuel : Nat)
    (outer : List Bracket) (rest : Octets) :
    passOn false fuel (bracket :: outer) (Octets.ofChars before ++ octet ',' :: rest) =
      passPart fuel bracket outer rest := by
  have other : ¬ octet ',' = bracket.closing := by cases bracket <;> decide
  rw [passOn, passEnds, afterSpace_blanks_cons blanks (by decide)]
  dsimp only
  rw [if_neg other, if_neg Bool.false_ne_true, if_pos rfl]
  rfl

/-- The first part of a value in brackets has no comma before it. -/
theorem passOn_fresh {input others : Octets} {b : UInt8} (start : afterSpace input = b :: others)
    (other : b ≠ bracket.closing) (fuel : Nat) (outer : List Bracket) :
    passOn true (fuel + 1) (bracket :: outer) input = passPart (fuel + 1) bracket outer input := by
  rw [passOn, passEnds, start]
  dsimp only
  rw [if_neg other, if_pos rfl, ← passPart_afterSpace, start]
  rfl

/-- Holds of a text that is passed in the given brackets, using a unit of fuel for each value. -/
structure PassedIn (bracket : Bracket) (part : List Char) : Prop where
  start : ∀ rest, ∃ b others,
    afterSpace (Octets.ofChars part ++ rest) = b :: others ∧ b ≠ bracket.closing
  pass : ∃ used < part.length, ∀ fuel outer rest, Closed rest → ∃ after, Blanks after ∧
    passPart (fuel + used + 1) bracket outer (Octets.ofChars part ++ rest) =
      passOn false fuel (bracket :: outer) (Octets.ofChars after ++ rest)

/-- The parts after the first one are passed up to the end of the brackets. -/
theorem passOn_commaTail {closing : Char} (closes : octet closing = bracket.closing)
    (ends : closing = ']' ∨ closing = '\x7d') {parts : List (List Char)}
    (passed : ∀ part ∈ parts, PassedIn bracket part) :
    ∃ used < (commaTail closing parts).length, ∀ fuel outer before rest, Blanks before →
      passOn false (fuel + used) (bracket :: outer)
          (Octets.ofChars before ++ (Octets.ofChars (commaTail closing parts) ++ rest)) =
        passOn false fuel outer rest := by
  induction parts with
  | nil =>
    refine ⟨0, Nat.one_pos, fun fuel outer before rest blanks => ?_⟩
    have last : Octets.ofChars [closing] = [octet closing] := by
      rcases ends with rfl | rfl <;> rfl
    rw [commaTail, last, List.singleton_append, closes, passOn_end blanks]
    rfl
  | cons part parts ih =>
    obtain ⟨first, others⟩ := List.forall_mem_cons.mp passed
    obtain ⟨usedFirst, shorter, pass⟩ := first.pass
    obtain ⟨usedOthers, shorter', passOthers⟩ := ih others
    refine ⟨usedOthers + usedFirst + 1, ?_, fun fuel outer before rest blanks => ?_⟩
    · rw [commaTail, List.length_append, List.length_cons]
      omega
    · obtain ⟨after, blanks', inside⟩ := pass (fuel + usedOthers) outer
        (Octets.ofChars (commaTail closing parts) ++ rest) (closed_commaTail ends parts rest)
      have sum : fuel + (usedOthers + usedFirst + 1) = fuel + usedOthers + usedFirst + 1 := by omega
      rw [ofChars_commaTail_cons, passOn_comma blanks, sum, inside, passOthers _ _ _ _ blanks']

/-- What stands in brackets is passed up to their end. -/
theorem passOn_bracketed {closing : Char} (closes : octet closing = bracket.closing)
    (ends : closing = ']' ∨ closing = '\x7d') {part : List Char} {parts : List (List Char)}
    (passed : ∀ other ∈ part :: parts, PassedIn bracket other) :
    ∃ used < part.length + (commaTail closing parts).length, ∀ fuel outer rest,
      passOn true (fuel + used) (bracket :: outer)
          (Octets.ofChars part ++ (Octets.ofChars (commaTail closing parts) ++ rest)) =
        passOn false fuel outer rest := by
  obtain ⟨first, others⟩ := List.forall_mem_cons.mp passed
  obtain ⟨usedFirst, shorter, pass⟩ := first.pass
  obtain ⟨usedOthers, shorter', passOthers⟩ := passOn_commaTail closes ends others
  refine ⟨usedOthers + usedFirst + 1, by omega, fun fuel outer rest => ?_⟩
  obtain ⟨after, blanks, inside⟩ := pass (fuel + usedOthers) outer
    (Octets.ofChars (commaTail closing parts) ++ rest) (closed_commaTail ends parts rest)
  obtain ⟨b, left, start, other⟩ := first.start (Octets.ofChars (commaTail closing parts) ++ rest)
  have sum : fuel + (usedOthers + usedFirst + 1) = fuel + usedOthers + usedFirst + 1 := by omega
  rw [sum, passOn_fresh start other, inside, passOthers _ _ _ _ blanks]

/-- Holds of a text that is passed up to blanks at its end, using a unit of fuel for each value. -/
def Passed (cs : List Char) : Prop :=
  ∃ used < cs.length, ∀ fuel brackets rest, Closed rest → ∃ after, Blanks after ∧
    passFrom (fuel + used + 1) brackets (Octets.ofChars cs ++ rest) =
      passOn false fuel brackets (Octets.ofChars after ++ rest)

variable {depth : Nat} {cs : List Char} {v : Json}

theorem Passed.blanks (passed : Passed cs) {before after : List Char} (first : Blanks before)
    (last : Blanks after) : Passed (before ++ cs ++ after) := by
  obtain ⟨used, shorter, pass⟩ := passed
  refine ⟨used, ?_, fun fuel brackets rest closed => ?_⟩
  · rw [List.length_append, List.length_append]
    omega
  · obtain ⟨left, blanks, inside⟩ := pass fuel brackets _ (closed.blanks last)
    refine ⟨left ++ after, blanks.append last, ?_⟩
    rw [List.append_assoc, Octets.ofChars_append, Octets.ofChars_append, List.append_assoc,
      List.append_assoc, passFrom_congr (afterSpace_blanks first _), inside, Octets.ofChars_append,
      List.append_assoc]

/-- A text that begins no brackets is passed over as a scalar. -/
theorem passed_of_passScalar (pass : ∀ rest, Closed rest → ∃ b others,
    Octets.ofChars cs ++ rest = b :: others ∧ ¬ isSpace b ∧ b ≠ octet '[' ∧ b ≠ octet '\x7b' ∧
      passScalar (b :: others) = .ok rest) : Passed cs := by
  refine ⟨0, ?_, fun fuel brackets rest closed => ⟨[], List.forall_mem_nil _, ?_⟩⟩
  · obtain ⟨b, others, same, _⟩ := pass [] closed_nil
    refine List.length_pos_iff.mpr fun none => ?_
    rw [none] at same
    cases same
  · obtain ⟨b, others, same, visible, noList, noObject, scalar⟩ := pass rest closed
    refine passFrom_of_start ?_ fuel
    rw [same, afterSpace_of_not_isSpace visible, passStart, if_neg noList, if_neg noObject, scalar]
    rfl

theorem passed_word {c : Char} {cs : List Char} (ascii : ∀ d ∈ c :: cs, d.toNat < 0x80)
    (visible : ¬ isSpace (octet c)) (noList : c ≠ '[') (noObject : c ≠ '\x7b')
    (scalar : ∀ rest, passScalar (octet c :: rest) = (word .null cs rest).map (·.2)) :
    Passed (c :: cs) := by
  obtain ⟨first, others⟩ := List.forall_mem_cons.mp ascii
  refine passed_of_passScalar fun rest _ => ⟨octet c, Octets.ofChars cs ++ rest, ?_, visible,
    fun same => noList (octet_inj first (by decide) same),
    fun same => noObject (octet_inj first (by decide) same), ?_⟩
  · rw [ofChars_cons_of_ascii first, List.cons_append]
  · rw [scalar, word_chars _ others]
    rfl

theorem passed_natural {ds : List Char} (whole : Whole ds) : Passed ds := by
  refine passed_of_passScalar fun rest closed => ?_
  have pass := passNumber_digits whole closed
  cases ds with
  | nil => exact absurd rfl whole.nonempty
  | cons d ds =>
    obtain ⟨ascii, digit, _⟩ := isDigit_of_digit (whole.all d List.mem_cons_self)
    obtain ⟨visible, other⟩ := special_of_isDigit digit
    rw [ofChars_cons_of_ascii ascii, List.cons_append] at pass ⊢
    refine ⟨_, _, rfl, visible, other _ (by decide), other _ (by decide), ?_⟩
    rw [passScalar, if_neg (other _ (by decide)), if_neg (other _ (by decide)),
      if_neg (other _ (by decide)), if_neg (other _ (by decide)), if_pos digit, pass]

theorem passed_negative {ds : List Char} (whole : Whole ds) : Passed ('-' :: ds) := by
  refine passed_of_passScalar fun rest closed => ?_
  rw [ofChars_cons_of_ascii (by decide), List.cons_append]
  refine ⟨_, _, rfl, by decide, by decide, by decide, ?_⟩
  rw [passScalar, if_neg (by decide), if_neg (by decide), if_neg (by decide), if_pos rfl,
    passNumber_digits whole closed]

theorem passed_text {s : String} (quotes : Quotes s cs) : Passed cs := by
  refine passed_of_passScalar fun rest _ => ?_
  obtain ⟨body, rfl, pass⟩ := quotes.pass
  have noDigit : ¬ isDigit (octet '"') := by decide
  rw [ofChars_cons_of_ascii (by decide), List.cons_append]
  refine ⟨_, _, rfl, by decide, by decide, by decide, ?_⟩
  rw [passScalar, if_neg (by decide), if_neg (by decide), if_neg (by decide), if_neg (by decide),
    if_neg noDigit, if_pos rfl, pass]

theorem passFrom_list (fuel : Nat) (brackets : List Bracket) (rest : Octets) :
    passFrom (fuel + 1) brackets (octet '[' :: rest) =
      passOn true fuel (.list :: brackets) rest := by
  refine passFrom_of_start ?_ fuel
  rw [afterSpace_of_not_isSpace (by decide), passStart, if_pos rfl]

theorem passFrom_object (fuel : Nat) (brackets : List Bracket) (rest : Octets) :
    passFrom (fuel + 1) brackets (octet '\x7b' :: rest) =
      passOn true fuel (.object :: brackets) rest := by
  refine passFrom_of_start ?_ fuel
  rw [afterSpace_of_not_isSpace (by decide), passStart, if_neg (by decide), if_pos rfl]

theorem Passed.inList (passed : Passed cs) (encodes : Encodes depth cs v) : PassedIn .list cs where
  start rest := by
    obtain ⟨b, others, opening, start⟩ := encodes.begins.afterSpace rest
    exact ⟨b, others, start, opening.visible.2.1⟩
  pass := by
    obtain ⟨used, shorter, pass⟩ := passed
    exact ⟨used, shorter, fun fuel outer rest closed => pass fuel (.list :: outer) rest closed⟩

theorem Passed.inObject {member : Member} (passed : Passed member.text)
    (named : member.IsNamed) : PassedIn .object member.chars := by
  obtain ⟨body, same, pass⟩ := named.quoted.pass
  have start (rest : Octets) : afterSpace (Octets.ofChars member.chars ++ rest) =
      octet '"' :: (Octets.ofChars body ++ (Octets.ofChars member.afterName ++ rest)) := by
    rw [Member.octets_chars same, afterSpace_blanks_cons named.before (by decide)]
  obtain ⟨used, shorter, passValue⟩ := passed
  refine ⟨fun rest => ⟨_, _, start rest, by decide⟩, used, ?_, fun fuel outer rest closed => ?_⟩
  · exact Nat.lt_trans shorter member.length_text_lt
  · have name : passName .object (Octets.ofChars member.chars ++ rest) =
        .ok (Octets.ofChars member.text ++ rest) := by
      rw [passName, start]
      dsimp only
      rw [if_pos rfl, pass]
      exact named.colon rest
    obtain ⟨after, blanks, inside⟩ := passValue fuel (.object :: outer) rest closed
    refine ⟨after, blanks, ?_⟩
    rw [passPart, name, ← inside]
    rfl

/-- A bracketed text is passed when its parts are. -/
theorem passed_bracketed {opening closing : Char} (ascii : opening.toNat < 0x80)
    (opens : ∀ fuel brackets rest, passFrom (fuel + 1) brackets (octet opening :: rest) =
      passOn true fuel (bracket :: brackets) rest)
    (closes : octet closing = bracket.closing) (ends : closing = ']' ∨ closing = '\x7d')
    {parts : List (List Char)} (nonempty : parts ≠ [])
    (passed : ∀ part ∈ parts, PassedIn bracket part) : Passed (bracketed opening closing parts) := by
  cases parts with
  | nil => exact absurd rfl nonempty
  | cons part parts =>
    obtain ⟨used, shorter, pass⟩ := passOn_bracketed closes ends passed
    refine ⟨used, ?_, fun fuel brackets rest _ => ⟨[], List.forall_mem_nil _, ?_⟩⟩
    · rw [bracketed_cons, List.length_cons, List.length_append]
      omega
    · rw [bracketed_cons, ofChars_cons_of_ascii ascii, Octets.ofChars_append, List.cons_append,
        List.append_assoc, opens, pass]
      rfl

theorem passed_empty {opening closing : Char} (ascii : opening.toNat < 0x80)
    (opens : ∀ fuel brackets rest, passFrom (fuel + 1) brackets (octet opening :: rest) =
      passOn true fuel (bracket :: brackets) rest)
    (closes : Octets.ofChars [closing] = [bracket.closing]) {inside : List Char}
    (blanks : Blanks inside) : Passed (opening :: inside ++ [closing]) := by
  refine ⟨0, Nat.succ_pos _, fun fuel brackets rest _ => ⟨[], List.forall_mem_nil _, ?_⟩⟩
  rw [List.cons_append, ofChars_cons_of_ascii ascii, Octets.ofChars_append, closes,
    List.cons_append, List.append_assoc, List.singleton_append, opens, passOn_end blanks]
  rfl

/-- A text that encodes a value is passed, whatever its depth. -/
theorem Encodes.passed (encodes : Encodes depth cs v) : Passed cs := by
  induction encodes with
  | null => exact passed_word (by simp) (by decide) (by decide) (by decide) fun _ => rfl
  | true => exact passed_word (by simp) (by decide) (by decide) (by decide) fun _ => rfl
  | false => exact passed_word (by simp) (by decide) (by decide) (by decide) fun _ => rfl
  | natural whole => exact passed_natural whole
  | negative whole => exact passed_negative whole
  | text quotes => exact passed_text quotes
  | blanks first _ last ih => exact ih.blanks first last
  | emptyList blanks => exact passed_empty (by decide) passFrom_list rfl blanks
  | list items nonempty encodes ih =>
    refine passed_bracketed (by decide) passFrom_list rfl (.inl rfl) (by simpa using nonempty) ?_
    exact List.forall_mem_map.mpr fun item listed => (ih item listed).inList (encodes item listed)
  | emptyObject blanks => exact passed_empty (by decide) passFrom_object rfl blanks
  | object members nonempty named _ ih =>
    refine passed_bracketed (by decide) passFrom_object rfl (.inr rfl) (by simpa using nonempty) ?_
    exact List.forall_mem_map.mpr fun member listed =>
      (ih member listed).inObject (named member listed)

/-- A text that encodes a value is passed over whole, and blanks after it are left. -/
theorem Encodes.passValue (encodes : Encodes depth cs v) {rest : Octets} (closed : Closed rest) :
    ∃ after, Blanks after ∧
      passValue (Octets.ofChars cs ++ rest) = .ok (Octets.ofChars after ++ rest) := by
  obtain ⟨used, shorter, pass⟩ := encodes.passed
  have longer := Octets.length_le_length_ofChars cs
  have fuel : (Octets.ofChars cs ++ rest).length + 1 =
      (Octets.ofChars cs ++ rest).length - used + used + 1 := by
    rw [List.length_append]
    omega
  obtain ⟨after, blanks, inside⟩ := pass ((Octets.ofChars cs ++ rest).length - used) [] rest closed
  exact ⟨after, blanks, by rw [Json.passValue, fuel, inside, passOn_nil]⟩

end WorkflowKit.Json
