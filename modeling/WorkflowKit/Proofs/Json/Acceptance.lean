import WorkflowKit.Proofs.Json.Decoding

namespace WorkflowKit.Json

/-- An octet of ASCII is a character. -/
theorem eq_cons_of_octet {cs : List Char} {c : Char} (ascii : c.toNat < 0x80) {rest : Octets}
    (begins : Octets.ofChars cs = octet c :: rest) :
    ∃ after, cs = c :: after ∧ rest = Octets.ofChars after := by
  cases cs with
  | nil => cases begins
  | cons d ds =>
    rcases Nat.lt_or_ge d.toNat 0x80 with small | large
    · rw [ofChars_cons_of_ascii small] at begins
      obtain ⟨same, others⟩ := List.cons.inj begins
      exact ⟨ds, by rw [octet_inj small ascii same], others.symm⟩
    · have first : octet c ∈ String.utf8EncodeChar d := by
        have visible : String.utf8EncodeChar d ≠ [] := by
          refine List.ne_nil_of_length_pos ?_
          rw [String.length_utf8EncodeChar]
          exact Char.utf8Size_pos d
        obtain ⟨b, bs, encoded⟩ := List.exists_cons_of_ne_nil visible
        rw [Octets.ofChars_cons, encoded, List.cons_append] at begins
        rw [encoded, (List.cons.inj begins).1]
        exact List.mem_cons_self
      have high := Octets.high_of_mem_encoded large first
      rw [toNat_octet ascii] at high
      exact absurd ascii (Nat.not_lt.mpr high)

theorem eq_cons_of_isSpace {cs : List Char} {b : UInt8} (space : isSpace b) {rest : Octets}
    (begins : Octets.ofChars cs = b :: rest) :
    ∃ c ∈ [' ', '\n', '\t', '\r'], ∃ after, cs = c :: after := by
  simp only [isSpace, Bool.or_eq_true, decide_eq_true_eq] at space
  rcases space with ((rfl | rfl) | rfl) | rfl <;>
    obtain ⟨after, same, _⟩ := eq_cons_of_octet (by decide) begins <;>
    exact ⟨_, by decide, after, same⟩

theorem eq_cons_of_isDigit {cs : List Char} {b : UInt8} (digit : isDigit b) {rest : Octets}
    (begins : Octets.ofChars cs = b :: rest) :
    ∃ d after, d.isDigit ∧ cs = d :: after ∧ rest = Octets.ofChars after := by
  have each : ∀ n < 0x100, isDigit (UInt8.ofNat n) → n < 0x80 ∧ (Char.ofNat n).isDigit ∧
      UInt8.ofNat n = octet (Char.ofNat n) := by decide +kernel
  have found := each b.toNat b.toNat_lt
  rw [UInt8.ofNat_toNat] at found
  obtain ⟨_, isDigit, same⟩ := found digit
  rw [same] at begins
  obtain ⟨after, text, left⟩ := eq_cons_of_octet (isDigit_of_digit isDigit).1 begins
  exact ⟨_, after, isDigit, text, left⟩

theorem eq_cons_of_startsExponent {cs : List Char} {b : UInt8} (starts : startsExponent b)
    {rest : Octets} (begins : Octets.ofChars cs = b :: rest) :
    ∃ mark after, (mark = 'e' ∨ mark = 'E') ∧ cs = mark :: after ∧ rest = Octets.ofChars after := by
  simp only [startsExponent, Bool.or_eq_true, decide_eq_true_eq] at starts
  rcases starts with rfl | rfl <;>
    obtain ⟨after, same, left⟩ := eq_cons_of_octet (by decide) begins <;>
    exact ⟨_, after, by simp, same, left⟩

/-- The blanks at the start of a text are skipped. -/
theorem afterSpace_split (cs : List Char) :
    ∃ before after, cs = before ++ after ∧ Blanks before ∧
      afterSpace (Octets.ofChars cs) = Octets.ofChars after := by
  let blank (c : Char) : Bool := [' ', '\n', '\t', '\r'].contains c
  have blanks : Blanks (cs.takeWhile blank) := fun c member =>
    List.contains_iff_mem.mp (List.mem_takeWhile_imp member)
  refine ⟨cs.takeWhile blank, cs.dropWhile blank, List.takeWhile_append_dropWhile.symm, blanks, ?_⟩
  have whole := congrArg Octets.ofChars (List.takeWhile_append_dropWhile (p := blank) (l := cs)).symm
  rw [whole, Octets.ofChars_append, afterSpace_blanks blanks]
  cases octets : Octets.ofChars (cs.dropWhile blank) with
  | nil => rfl
  | cons b rest =>
    refine afterSpace_of_not_isSpace (fun space => ?_) rest
    obtain ⟨c, listed, after, same⟩ := eq_cons_of_isSpace space octets
    have other := List.head?_dropWhile_not blank cs
    rw [same] at other
    exact Bool.false_ne_true (other.symm.trans (List.contains_iff_mem.mpr listed))

/-- The digits at the start of a text. -/
theorem digits_split (cs : List Char) :
    ∃ ds after, cs = ds ++ after ∧ (∀ d ∈ ds, d.isDigit) ∧ NoDigit (Octets.ofChars after) := by
  refine ⟨cs.takeWhile Char.isDigit, cs.dropWhile Char.isDigit,
    List.takeWhile_append_dropWhile.symm, fun d member => List.mem_takeWhile_imp member, ?_⟩
  intro b first digit
  obtain ⟨rest, octets⟩ := List.head?_eq_some_iff.mp first
  obtain ⟨d, after, isDigit, same, _⟩ := eq_cons_of_isDigit digit octets
  have other := List.head?_dropWhile_not Char.isDigit cs
  rw [same] at other
  exact Bool.false_ne_true (other.symm.trans isDigit)

variable {negative : Bool} {significand : Nat} {start : Int} {read : JsonNumber × Octets}
  {cs : List Char}

/-- The sign of an exponent, if it has one. -/
theorem sign_split (cs : List Char) :
    let input := Octets.ofChars cs
    ∃ sign below tail, cs = sign ++ tail ∧ (sign, below) ∈ exponentSigns ∧
      (if input.head? = some (octet '-') ∨ input.head? = some (octet '+') then input.drop 1 else input) =
        Octets.ofChars tail := by
  intro input
  have signed {c : Char} (ascii : c.toNat < 0x80) (first : input.head? = some (octet c)) :
      ∃ tail, cs = c :: tail ∧ input.drop 1 = Octets.ofChars tail := by
    obtain ⟨rest, octets⟩ := List.head?_eq_some_iff.mp first
    obtain ⟨tail, same, left⟩ := eq_cons_of_octet ascii octets
    exact ⟨tail, same, by rw [octets, left]; rfl⟩
  split
  · rename_i either
    rcases either with minus | plus
    · obtain ⟨tail, same, left⟩ := signed (by decide) minus
      exact ⟨['-'], true, tail, same, by simp [exponentSigns], left⟩
    · obtain ⟨tail, same, left⟩ := signed (by decide) plus
      exact ⟨['+'], false, tail, same, by simp [exponentSigns], left⟩
  · exact ⟨[], false, cs, rfl, by simp [exponentSigns], rfl⟩

/-- An exponent that is read has digits after its sign. -/
theorem exponent_split (found : exponent negative significand start (Octets.ofChars cs) = .ok read) :
    ∃ sign below ds after, cs = sign ++ (ds ++ after) ∧ (sign, below) ∈ exponentSigns ∧ Digits ds ∧
      NoDigit (Octets.ofChars after) := by
  obtain ⟨sign, below, tail, text, signed, digits⟩ := sign_split cs
  obtain ⟨ds, after, rfl, digit, noDigit⟩ := digits_split tail
  refine ⟨sign, below, ds, after, text, signed, ⟨?_, digit⟩, noDigit⟩
  rintro rfl
  unfold exponent at found
  dsimp only at found
  rw [digits, List.nil_append] at found
  split at found
  · cases found
  · rename_i first others same
    rw [if_neg (noDigit first (same ▸ rfl))] at found
    cases found

theorem afterDigits_split
    (found : afterDigits negative significand start (Octets.ofChars cs) = .ok read)
    (noDigit : NoDigit (Octets.ofChars cs)) :
    ∃ e text after, cs = text ++ after ∧ ExponentText e text ∧ NoDigit (Octets.ofChars after) ∧
      (e = none → NoExponent (Octets.ofChars after)) := by
  cases octets : Octets.ofChars cs with
  | nil =>
    refine ⟨none, [], cs, rfl, .none, noDigit, fun _ b first => ?_⟩
    rw [octets] at first
    cases first
  | cons b rest =>
    rw [octets, afterDigits] at found
    split at found
    · rename_i starts
      obtain ⟨mark, others, isMark, rfl, rfl⟩ := eq_cons_of_startsExponent starts octets
      obtain ⟨sign, below, ds, after, rfl, signed, digits, noDigit'⟩ := exponent_split found
      refine ⟨_, mark :: (sign ++ ds), after, by simp, .some isMark signed digits, noDigit',
        fun absent => absurd absent (Option.some_ne_none _)⟩
    · rename_i ends
      refine ⟨none, [], cs, rfl, .none, noDigit, fun _ c first => ?_⟩
      rw [octets] at first
      exact Option.some.inj first ▸ ends

theorem fraction_split (found : fraction negative significand start (Octets.ofChars cs) = .ok read) :
    ∃ ds e text after, cs = ds ++ (text ++ after) ∧ Digits ds ∧ ExponentText e text ∧
      NoDigit (Octets.ofChars after) ∧ (e = none → NoExponent (Octets.ofChars after)) := by
  obtain ⟨ds, tail, rfl, digit, noDigit⟩ := digits_split cs
  have nonempty : ds ≠ [] := by
    rintro rfl
    rw [List.nil_append] at found
    have none : (Octets.ofChars tail).takeWhile isDigit = [] :=
      (span_digits (List.forall_mem_nil _) noDigit).1
    unfold fraction at found
    dsimp only at found
    rw [none, List.isEmpty_nil, if_pos rfl] at found
    split at found <;> cases found
  rw [Octets.ofChars_append, ofChars_digits digit, fraction_digits ⟨nonempty, digit⟩ noDigit] at found
  obtain ⟨e, text, after, rfl, writes, ends⟩ := afterDigits_split found noDigit
  exact ⟨ds, e, text, after, rfl, ⟨nonempty, digit⟩, writes, ends⟩

/-- The digits that a number begins with: no zero stands before others. -/
theorem whole_split (found : unsigned negative (Octets.ofChars cs) = .ok read) :
    ∃ ds after, cs = ds ++ after ∧ Whole ds ∧ NoDigit (Octets.ofChars after) := by
  obtain ⟨ds, after, rfl, digit, noDigit⟩ := digits_split cs
  refine ⟨ds, after, rfl, ?_, noDigit⟩
  rw [Octets.ofChars_append, ofChars_digits digit] at found
  cases ds with
  | nil =>
    rw [List.map_nil, List.nil_append] at found
    cases octets : Octets.ofChars after with
    | nil =>
      rw [octets] at found
      cases found
    | cons b rest =>
      rw [octets, unsigned, if_pos (noDigit b (octets ▸ rfl))] at found
      cases found
  | cons d ds =>
    refine ⟨⟨List.cons_ne_nil _ _, digit⟩, fun zero => ?_⟩
    obtain rfl : d = '0' := Option.some.inj zero
    cases ds with
    | nil => rfl
    | cons e ds =>
      have another := (isDigit_of_digit (digit e (by simp))).2.1
      have zeroDigit : ¬ ¬ isDigit (octet '0') := by decide
      rw [List.map_cons, List.map_cons, List.cons_append, List.cons_append, unsigned,
        if_neg zeroDigit, if_pos ⟨rfl, another⟩] at found
      cases found

/-- A number that is read is the text of a number up to its end. -/
theorem unsigned_split (found : unsigned negative (Octets.ofChars cs) = .ok read) :
    ∃ literal : Literal, ∃ magnitude after, literal.negative = negative ∧
      literal.WritesMagnitude magnitude ∧ cs = magnitude ++ after ∧
        literal.Ends (Octets.ofChars after) := by
  obtain ⟨ds, tail, rfl, whole, noDigit⟩ := whole_split found
  rw [Octets.ofChars_append, ofChars_digits whole.all, unsigned_whole whole noDigit] at found
  dsimp only at found
  -- The number may end after its digits for two reasons: nothing follows, or what follows is no
  -- part of it.
  have ends (noPoint : ∀ b ∈ (Octets.ofChars tail).head?, b ≠ octet '.')
      (noExponent : NoExponent (Octets.ofChars tail)) :
      ∃ literal : Literal, ∃ magnitude after, literal.negative = negative ∧
        literal.WritesMagnitude magnitude ∧ ds ++ tail = magnitude ++ after ∧
          literal.Ends (Octets.ofChars after) :=
    ⟨⟨negative, ds, [], none⟩, ds ++ ([] ++ []), tail, rfl, .parts whole .none .none, by simp,
      noDigit, fun _ => noExponent, fun _ => noPoint⟩
  cases octets : Octets.ofChars tail with
  | nil =>
    refine ends ?_ ?_ <;>
    · intro b first
      rw [octets] at first
      cases first
  | cons b rest =>
    rw [octets] at found
    dsimp only [afterWhole] at found
    split at found
    · rename_i point
      obtain ⟨others, rfl, rfl⟩ := eq_cons_of_octet (by decide) (point ▸ octets)
      obtain ⟨fs, e, text, after, rfl, digits, writes, noDigit', noExponent⟩ := fraction_split found
      refine ⟨⟨negative, ds, fs, e⟩, ds ++ ('.' :: fs ++ text), after, rfl,
        .parts whole (.some digits) writes, by simp, noDigit', noExponent, fun isWhole => ?_⟩
      exact absurd isWhole.1 digits.nonempty
    · rename_i noPoint
      split at found
      · rename_i starts
        obtain ⟨mark, others, isMark, rfl, rfl⟩ := eq_cons_of_startsExponent starts octets
        obtain ⟨sign, below, es, after, rfl, signed, digits, noDigit'⟩ := exponent_split found
        refine ⟨⟨negative, ds, [], _⟩, ds ++ ([] ++ mark :: (sign ++ es)), after, rfl,
          .parts whole .none (.some isMark signed digits), by simp, noDigit', nofun, fun isWhole => ?_⟩
        exact absurd isWhole.2 (Option.some_ne_none _)
      · rename_i noExponent
        refine ends (fun c first => ?_) fun c first => ?_ <;>
        · rw [octets] at first
          obtain rfl := Option.some.inj first
          assumption

/-- A number that is read is one that its text writes. -/
theorem unsigned_accepts {n : JsonNumber} {rest : Octets}
    (found : unsigned negative (Octets.ofChars cs) = .ok (n, rest)) :
    ∃ magnitude after, cs = magnitude ++ after ∧ rest = Octets.ofChars after ∧
      Numeral (if negative then '-' :: magnitude else magnitude) n := by
  obtain ⟨literal, magnitude, after, rfl, writes, rfl, ends⟩ := unsigned_split found
  have read := writes.unsigned ends
  rw [← Octets.ofChars_append, found] at read
  obtain ⟨number, found', same⟩ := Option.map_eq_some_iff.mp read.symm
  obtain ⟨rfl, rfl⟩ := Prod.mk.inj same
  exact ⟨magnitude, after, rfl, rfl, literal, ⟨magnitude, writes, rfl⟩, found'⟩

theorem eq_cons_of_hexValue {cs : List Char} {b : UInt8} {i : Nat} (value : hexValue b = some i)
    {rest : Octets} (begins : Octets.ofChars cs = b :: rest) :
    ∃ c after, "0123456789abcdef".toList[i]? = some c.toLower ∧ cs = c :: after ∧
      rest = Octets.ofChars after := by
  have each : ∀ n < 0x100, ∀ i ∈ hexValue (UInt8.ofNat n), n < 0x80 ∧
      "0123456789abcdef".toList[i]? = some (Char.ofNat n).toLower ∧
        UInt8.ofNat n = octet (Char.ofNat n) ∧ (Char.ofNat n).toNat = n := by decide +kernel
  have found := each b.toNat b.toNat_lt
  rw [UInt8.ofNat_toNat] at found
  obtain ⟨ascii, digit, same, number⟩ := found i value
  rw [same] at begins
  obtain ⟨after, text, left⟩ := eq_cons_of_octet (by rw [number]; exact ascii) begins
  exact ⟨_, after, digit, text, left⟩

/-- The digits that a number of four octets is made of. -/
theorem digits_of_hexNumber {a b c d : UInt8} {n : Nat} (number : hexNumber [a, b, c, d] = some n) :
    ∃ i j k l, hexValue a = some i ∧ hexValue b = some j ∧ hexValue c = some k ∧
      hexValue d = some l ∧ n = i * 0x1000 + j * 0x100 + k * 0x10 + l := by
  simp only [hexNumber, List.foldl_cons, List.foldl_nil, Option.bind_eq_some_iff,
    Option.map_eq_some_iff, Option.some.injEq] at number
  obtain ⟨_, ⟨_, ⟨_, ⟨_, rfl, i, first, rfl⟩, j, second, rfl⟩, k, third, rfl⟩, l, fourth, rfl⟩ :=
    number
  exact ⟨i, j, k, l, first, second, third, fourth, by omega⟩

/-- Four digits of base sixteen stand for a number below 0x10000. -/
theorem HexForm.bound {ds : List Char} {n : Nat} (form : HexForm ds n) : n < 0x10000 := by
  cases form with
  | digits first second third fourth =>
    have first := (List.getElem?_eq_some_iff.mp first).1
    have second := (List.getElem?_eq_some_iff.mp second).1
    have third := (List.getElem?_eq_some_iff.mp third).1
    have fourth := (List.getElem?_eq_some_iff.mp fourth).1
    have size : "0123456789abcdef".toList.length = 16 := by decide
    omega

/-- Four octets that are read as a number are four digits of base sixteen. -/
theorem fourDigits_accepts {n : Nat} (found : fourDigits (Octets.ofChars cs) = .ok n) :
    ∃ ds after, cs = ds ++ after ∧ HexForm ds n ∧
      (Octets.ofChars cs).drop 4 = Octets.ofChars after := by
  unfold fourDigits at found
  split at found
  · cases found
  · rename_i long
    split at found
    · rename_i m number
      cases found
      match octets : Octets.ofChars cs with
      | a :: b :: c :: d :: rest =>
        rw [octets] at number
        obtain ⟨i, j, k, l, first, second, third, fourth, rfl⟩ := digits_of_hexNumber number
        obtain ⟨_, _, digit, rfl, left⟩ := eq_cons_of_hexValue first octets
        obtain ⟨_, _, digit', rfl, left'⟩ := eq_cons_of_hexValue second left.symm
        obtain ⟨_, _, digit'', rfl, left''⟩ := eq_cons_of_hexValue third left'.symm
        obtain ⟨_, after, digit''', rfl, last⟩ := eq_cons_of_hexValue fourth left''.symm
        exact ⟨[_, _, _, _], after, rfl, .digits digit digit' digit'' digit''', last⟩
      | [] | [_] | [_, _] | [_, _, _] => simp [octets] at long
    · cases found

/-- A character that is read from digits is spelled by them, as one group or as a pair of
surrogates. -/
theorem escapedNumber_accepts {c : Char} {taken : Nat}
    (found : escapedNumber (Octets.ofChars cs) = .ok (c, taken)) :
    ∃ part after, cs = part ++ after ∧ Spells ('\\' :: 'u' :: part) c ∧
      (Octets.ofChars cs).drop taken = Octets.ofChars after := by
  obtain ⟨first, read, found⟩ := Except.bind_eq_ok_iff.mp found
  obtain ⟨ds, after, text, form, left⟩ := fourDigits_accepts read
  have bound := form.bound
  dsimp only at found
  -- A number that is no surrogate is the character itself. A low surrogate alone is refused.
  split at found
  · cases found
  · rename_i notLow
    split at found
    · rename_i notHigh
      cases found
      have number : (Char.ofNat first).toNat = first := Octets.toNat_ofNat_of_valid (by omega)
      exact ⟨ds, after, text, .number (by rwa [number]), left⟩
    · rename_i high
      -- A high surrogate needs a second group of digits, with a low one.
      split at found
      · cases found
      · rename_i b rest octets
        rw [left] at octets
        split at found
        · cases found
        · rename_i isBackslash
          obtain ⟨after, rfl, rfl⟩ := eq_cons_of_octet (by decide) (not_not.mp isBackslash ▸ octets)
          split at found
          · cases found
          · rename_i u digits octets'
            split at found
            · cases found
            · rename_i isU
              obtain ⟨low, rfl, rfl⟩ := eq_cons_of_octet (by decide) (not_not.mp isU ▸ octets')
              obtain ⟨second, read', found⟩ := Except.bind_eq_ok_iff.mp found
              obtain ⟨ds', after, rfl, form', left'⟩ := fourDigits_accepts read'
              split at found
              · cases found
              · rename_i isLow
                simp only [Except.ok.injEq, Prod.mk.injEq] at found
                obtain ⟨rfl, rfl⟩ := found
                have number := Octets.toNat_ofNat_of_valid
                  (n := (first - 0xD800) * 0x400 + (second - 0xDC00) + 0x10000) (by omega)
                refine ⟨ds ++ '\\' :: 'u' :: ds', after, by simp [text], ?_, ?_⟩
                · refine .pair form form' (by omega) (by omega) (by omega) (by omega) ?_
                  rw [number]
                  omega
                · have split := List.drop_drop (i := 6) (j := 4) (l := Octets.ofChars cs)
                  rw [left] at split
                  rw [← split, ofChars_cons_of_ascii (by decide), ofChars_cons_of_ascii (by decide)]
                  exact left'

theorem octet_of_shortEscape {b : UInt8} {c : Char} (short : shortEscape b = some c) :
    ∃ letter, letter.toNat < 0x80 ∧ b = octet letter ∧ (letter, c) ∈ shortEscapes := by
  unfold shortEscape at short
  split_ifs at short <;> cases short <;> refine ⟨_, ?_, ‹_›, ?_⟩ <;> decide

/-- An escape that is read spells its character. -/
theorem escape_accepts {c : Char} {taken : Nat}
    (found : escape (Octets.ofChars cs) = .ok (c, taken)) :
    ∃ part after, cs = part ++ after ∧ Spells ('\\' :: part) c ∧
      (Octets.ofChars cs).drop taken = Octets.ofChars after := by
  unfold escape at found
  split at found
  · cases found
  · rename_i b rest octets
    split at found
    · rename_i short
      cases found
      obtain ⟨letter, ascii, rfl, listed⟩ := octet_of_shortEscape short
      obtain ⟨after, rfl, rfl⟩ := eq_cons_of_octet ascii octets
      exact ⟨[letter], after, rfl, .short listed, by rw [octets]; rfl⟩
    · split at found
      · rename_i isU
        obtain ⟨after, rfl, rfl⟩ := eq_cons_of_octet (by decide) (isU ▸ octets)
        obtain ⟨⟨_, n⟩, number, same⟩ := Except.map_eq_ok_iff.mp found
        cases same
        obtain ⟨part, after', rfl, spells, left⟩ := escapedNumber_accepts number
        exact ⟨'u' :: part, after', rfl, spells, by rw [octets, List.drop_succ_cons, left]⟩
      · cases found

/-- A text that is read is spelled by what stands before its last quote. -/
theorem textOctets_accepts {octets rest : Octets}
    (found : textOctets (Octets.ofChars cs) = .ok (octets, rest)) :
    ∃ inside ds after, cs = inside ++ '"' :: after ∧ SpellsAll inside ds ∧
      octets = Octets.ofChars ds ∧ rest = Octets.ofChars after := by
  -- An escape takes several characters at once, so the induction is on the length.
  induction size : cs.length using Nat.strongRecOn generalizing cs octets with
  | _ size ih =>
    cases cs with
    | nil =>
      rw [Octets.ofChars_nil, textOctets] at found
      cases found
    | cons c cs =>
      by_cases quote : c = '"'
      · subst quote
        rw [ofChars_cons_of_ascii (by decide), textOctets, if_pos rfl] at found
        cases found
        exact ⟨[], [], cs, rfl, .nil, rfl, rfl⟩
      · by_cases backslash : c = '\\'
        · subst backslash
          rw [ofChars_cons_of_ascii (by decide), textOctets, if_neg (by decide), if_pos rfl] at found
          split at found
          · cases found
          · rename_i c taken escaped
            obtain ⟨part, after, rfl, spells, left⟩ := escape_accepts escaped
            obtain ⟨⟨others, _⟩, read, same⟩ := Except.map_eq_ok_iff.mp found
            cases same
            rw [left] at read
            obtain ⟨inside, ds, after, rfl, spells', rfl, rfl⟩ := ih _ (by simp at size; omega) read rfl
            exact ⟨'\\' :: part ++ inside, c :: ds, after, by simp, .cons spells spells',
              (Octets.ofChars_cons _ _).symm, rfl⟩
        · by_cases control : c.toNat < 0x20
          · have ascii := Nat.lt_trans control (show 0x20 < 0x80 by decide)
            have other {d : Char} (different : c ≠ d) (small : d.toNat < 0x80) : ¬ octet c = octet d :=
              fun same => different (octet_inj ascii small same)
            have below : octet c < 0x20 := by
              rw [UInt8.lt_iff_toNat_lt, toNat_octet ascii]
              exact control
            rw [ofChars_cons_of_ascii ascii, textOctets, if_neg (other quote (by decide)),
              if_neg (other backslash (by decide)), if_pos below] at found
            cases found
          · have least := Nat.le_of_not_lt control
            rw [Octets.ofChars_cons, textOctets_plain fun b =>
              plain_of_mem_encoded least quote backslash] at found
            obtain ⟨⟨others, _⟩, read, same⟩ := Except.map_eq_ok_iff.mp found
            cases same
            obtain ⟨inside, ds, after, rfl, spells, rfl, rfl⟩ := ih _ (by simp at size; omega) read rfl
            exact ⟨[c] ++ inside, c :: ds, after, rfl, .cons (.plain least quote backslash) spells,
              (Octets.ofChars_cons _ _).symm, rfl⟩

/-- A text that is read stands between quotes, each character spelled in one of its ways. -/
theorem textValue_accepts {s : String} {rest : Octets}
    (found : textValue (Octets.ofChars cs) = .ok (s, rest)) :
    ∃ inside after, cs = inside ++ after ∧ Quotes s ('"' :: inside) ∧ rest = Octets.ofChars after := by
  obtain ⟨⟨octets, left⟩, read, found⟩ := Except.bind_eq_ok_iff.mp found
  obtain ⟨inside, ds, after, rfl, spells, rfl, rfl⟩ := textOctets_accepts read
  dsimp only at found
  rw [Octets.text?_ofChars] at found
  cases found
  refine ⟨inside ++ ['"'], after, by simp, .quoted ?_, rfl⟩
  rwa [String.toList_ofList]

/-- Holds of a text that goes on with another one in brackets: after blanks, and after a comma unless it
is the first there. -/
def Leads (first : Bool) (cs part : List Char) : Prop :=
  ∃ before, Blanks before ∧ cs = before ++ if first then part else ',' :: part

/-- Holds of a text that ends a bracket, and what is left after it. -/
def Ends (closing : Char) (cs : List Char) (rest : Octets) : Prop :=
  ∃ before after, Blanks before ∧ cs = before ++ closing :: after ∧ rest = Octets.ofChars after

/-- Parts in brackets from a place after the opening one on. -/
def inBrackets (closing : Char) : Bool → List (List Char) → List Char
  | true, part :: parts => part ++ commaTail closing parts
  | _, parts => commaTail closing parts

theorem Leads.inBrackets {first : Bool} {part after : List Char} {closing : Char}
    {parts : List (List Char)} (leads : Leads first cs (part ++ (commaTail closing parts ++ after))) :
    ∃ before, Blanks before ∧ cs = before ++ (inBrackets closing first (part :: parts) ++ after) := by
  obtain ⟨before, blanks, rfl⟩ := leads
  refine ⟨before, blanks, ?_⟩
  cases first <;> simp [Json.inBrackets, commaTail]

theorem Ends.inBrackets {closing : Char} {rest : Octets} (ends : Ends closing cs rest) (first : Bool) :
    ∃ before after, Blanks before ∧ cs = before ++ (inBrackets closing first [] ++ after) ∧
      rest = Octets.ofChars after := by
  obtain ⟨before, after, blanks, rfl, rfl⟩ := ends
  refine ⟨before, after, blanks, ?_, rfl⟩
  cases first <;> rfl

theorem word_accepts {value read : Json} {letters : List Char} (ascii : ∀ c ∈ letters, c.toNat < 0x80)
    {rest : Octets} (found : word value letters (Octets.ofChars cs) = .ok (read, rest)) :
    read = value ∧ ∃ after, cs = letters ++ after ∧ rest = Octets.ofChars after := by
  induction letters generalizing cs with
  | nil =>
    cases found
    exact ⟨rfl, cs, rfl, rfl⟩
  | cons c letters ih =>
    obtain ⟨first, others⟩ := List.forall_mem_cons.mp ascii
    cases octets : Octets.ofChars cs with
    | nil =>
      rw [octets] at found
      cases found
    | cons b input =>
      rw [octets, word] at found
      split at found
      · rename_i same
        obtain ⟨after, rfl, rfl⟩ := eq_cons_of_octet first (same ▸ octets)
        obtain ⟨rfl, after, rfl, rfl⟩ := ih others found
        exact ⟨rfl, after, rfl, rfl⟩
      · cases found

theorem colon_accepts {rest : Octets} (found : colon (Octets.ofChars cs) = .ok rest) :
    Ends ':' cs rest := by
  obtain ⟨before, after, rfl, blanks, left⟩ := afterSpace_split cs
  rw [colon, left] at found
  split at found
  · cases found
  · rename_i b others octets
    split at found
    · rename_i isColon
      cases found
      obtain ⟨after, rfl, rfl⟩ := eq_cons_of_octet (by decide) (isColon ▸ octets)
      exact ⟨before, after, blanks, rfl, rfl⟩
    · cases found

theorem nextItem_accepts {first more : Bool} {rest : Octets}
    (found : nextItem first (Octets.ofChars cs) = .ok (more, rest)) :
    if more then ∃ between after, Blanks between ∧ Leads first cs (between ++ after) ∧
      rest = Octets.ofChars after
    else Ends ']' cs rest := by
  obtain ⟨before, after, rfl, blanks, left⟩ := afterSpace_split cs
  rw [nextItem, left] at found
  split at found
  · cases found
  · rename_i b others octets
    split at found
    · rename_i isEnd
      cases found
      obtain ⟨after, rfl, rfl⟩ := eq_cons_of_octet (by decide) (isEnd ▸ octets)
      exact ⟨before, after, blanks, rfl, rfl⟩
    · split at found
      · rename_i isFirst
        cases found
        exact ⟨[], after, List.forall_mem_nil _, ⟨before, blanks, by rw [if_pos isFirst]; rfl⟩,
          octets.symm⟩
      · rename_i notFirst
        split at found
        · rename_i isComma
          obtain ⟨after, rfl, rfl⟩ := eq_cons_of_octet (by decide) (isComma ▸ octets)
          obtain ⟨between, after, rfl, blanks', left'⟩ := afterSpace_split after
          rw [left'] at found
          split at found
          · cases found
          · rename_i c others octets'
            split at found
            · cases found
            · cases found
              exact ⟨between, after, blanks', ⟨before, blanks, by rw [if_neg notFirst]⟩,
                octets'.symm⟩
        · cases found

theorem nextName_accepts {first more : Bool} {rest : Octets}
    (found : nextName first (Octets.ofChars cs) = .ok (more, rest)) :
    if more then ∃ between after, Blanks between ∧ Leads first cs (between ++ '"' :: after) ∧
      rest = Octets.ofChars after
    else Ends '\x7d' cs rest := by
  obtain ⟨before, after, rfl, blanks, left⟩ := afterSpace_split cs
  rw [nextName, left] at found
  split at found
  · cases found
  · rename_i b others octets
    split at found
    · rename_i isEnd
      cases found
      obtain ⟨after, rfl, rfl⟩ := eq_cons_of_octet (by decide) (isEnd ▸ octets)
      exact ⟨before, after, blanks, rfl, rfl⟩
    · split at found
      · rename_i isFirst
        split at found
        · rename_i isQuote
          cases found
          obtain ⟨after, rfl, rfl⟩ := eq_cons_of_octet (by decide) (isQuote ▸ octets)
          exact ⟨[], after, List.forall_mem_nil _, ⟨before, blanks, by rw [if_pos isFirst]; rfl⟩, rfl⟩
        · cases found
      · rename_i notFirst
        split at found
        · rename_i isComma
          obtain ⟨after, rfl, rfl⟩ := eq_cons_of_octet (by decide) (isComma ▸ octets)
          -- After a comma there may be blanks, but no closing bracket.
          obtain ⟨between, after, rfl, blanks', left'⟩ := afterSpace_split after
          rw [left'] at found
          split at found
          · cases found
          · rename_i c others octets'
            split at found
            · rename_i isQuote
              cases found
              obtain ⟨after, rfl, rfl⟩ := eq_cons_of_octet (by decide) (isQuote ▸ octets')
              exact ⟨between, after, blanks', ⟨before, blanks, by rw [if_neg notFirst]⟩, rfl⟩
            · split at found <;> cases found
        · cases found

/-- A member begins with its quoted name, after a comma if it is not the first. -/
theorem memberName_accepts {first : Bool} {name : Option String} {rest : Octets}
    (found : memberName first (Octets.ofChars cs) = .ok (name, rest)) :
    match name with
    | some name => ∃ between quoted after, Blanks between ∧ Quotes name quoted ∧
      Leads first cs (between ++ (quoted ++ after)) ∧ rest = Octets.ofChars after
    | none => Ends '\x7d' cs rest := by
  obtain ⟨⟨more, left⟩, next, found⟩ := Except.bind_eq_ok_iff.mp (Except.mapError_eq_ok_iff.mp found)
  have accepted := nextName_accepts next
  cases more with
  | false =>
    cases found
    exact accepted
  | true =>
    obtain ⟨⟨text, left⟩, read, found⟩ := Except.bind_eq_ok_iff.mp found
    cases found
    obtain ⟨between, after, blanks, leads, rfl⟩ := accepted
    obtain ⟨inside, after, rfl, quotes, rfl⟩ := textValue_accepts read
    exact ⟨between, '"' :: inside, after, blanks, quotes, leads, rfl⟩

/-- Holds of a text that begins with the text of a value, and what is left after it. -/
def ValueAhead (depth : Nat) (cs : List Char) (v : Json) (rest : Octets) : Prop :=
  ∃ text after, cs = text ++ after ∧ Spelled Numeral depth text v ∧ rest = Octets.ofChars after

/-- Holds of a text that goes on with items of a list up to its end, and what is left after it. -/
def ItemsAhead (depth : Nat) (first : Bool) (cs : List Char) (vs : List Json) (rest : Octets) :
    Prop :=
  ∃ list : List (List Char × Json), ∃ before after,
    (∀ item ∈ list, Spelled Numeral depth item.1 item.2) ∧ vs = list.map (·.2) ∧ Blanks before ∧
      cs = before ++ (inBrackets ']' first (list.map (·.1)) ++ after) ∧ rest = Octets.ofChars after

/-- Holds of a text that goes on with members of an object up to its end, and what is left after it. -/
def MembersAhead (depth : Nat) (first : Bool) (cs : List Char) (entries : List (String × Json))
    (rest : Octets) : Prop :=
  ∃ list : List Member, ∃ before after, (∀ member ∈ list, member.IsNamed) ∧
    (∀ member ∈ list, Spelled Numeral depth member.text member.value) ∧
      entries = list.map (fun member => (member.name, member.value)) ∧ Blanks before ∧
        cs = before ++ (inBrackets '\x7d' first (list.map Member.chars) ++ after) ∧
          rest = Octets.ofChars after

/-- What holds of the values that the readers return, with so much fuel. -/
structure Accepts (fuel : Nat) : Prop where
  value : ∀ {allowed cs v rest}, value fuel allowed (Octets.ofChars cs) = .ok (v, rest) →
    ValueAhead (allowed - 1) cs v rest
  items : ∀ {allowed index cs vs rest}, items fuel allowed index (Octets.ofChars cs) = .ok (vs, rest) →
    ItemsAhead (allowed - 1) (index = 0) cs vs rest
  members : ∀ {allowed first cs entries rest},
    members fuel allowed first (Octets.ofChars cs) = .ok (entries, rest) →
      MembersAhead (allowed - 1) first cs entries rest

variable {depth : Nat} {before : List Char}

theorem spelled_list {list : List (List Char × Json)}
    (spelled : ∀ item ∈ list, Spelled Numeral depth item.1 item.2) (blanks : Blanks before) :
    Spelled Numeral (depth + 1) ('[' :: (before ++ inBrackets ']' true (list.map (·.1))))
      (.array (list.map (·.2))) := by
  cases list with
  | nil => exact .emptyList blanks
  | cons item list =>
    obtain ⟨first, others⟩ := List.forall_mem_cons.mp spelled
    have listed := Spelled.list ((before ++ item.1 ++ [], item.2) :: list) (List.cons_ne_nil _ _)
      (List.forall_mem_cons.mpr ⟨.blanks blanks first (List.forall_mem_nil _), others⟩)
    rw [List.map_cons, bracketed_cons] at listed
    simpa [inBrackets] using listed

theorem spelled_object {list : List Member} (named : ∀ member ∈ list, member.IsNamed)
    (spelled : ∀ member ∈ list, Spelled Numeral depth member.text member.value)
    (blanks : Blanks before) :
    Spelled Numeral (depth + 1) ('\x7b' :: (before ++ inBrackets '\x7d' true (list.map Member.chars)))
      (.ofMembers (list.map fun member => (member.name, member.value))) := by
  cases list with
  | nil => exact .emptyObject blanks
  | cons member list =>
    obtain ⟨name, names⟩ := List.forall_mem_cons.mp named
    obtain ⟨first, others⟩ := List.forall_mem_cons.mp spelled
    have listed := Spelled.object ({ member with before := before ++ member.before } :: list)
      (List.cons_ne_nil _ _)
      (List.forall_mem_cons.mpr ⟨⟨blanks.append name.before, name.quoted, name.between⟩, names⟩)
      (List.forall_mem_cons.mpr ⟨first, others⟩)
    rw [List.map_cons, bracketed_cons] at listed
    simpa [inBrackets, Member.chars] using listed

theorem accepts_zero : Accepts 0 where
  value found := by
    rw [Json.value] at found
    cases found
  items found := by
    rw [Json.items] at found
    cases found
  members found := by
    rw [Json.members] at found
    cases found

section Step

variable {fuel : Nat} (accepts : Accepts fuel)
include accepts

/-- One more level: a value that is read is spelled, given that its parts are. -/
theorem value_accepts {allowed : Nat} {v : Json} {rest : Octets}
    (found : value (fuel + 1) allowed (Octets.ofChars cs) = .ok (v, rest)) :
    ValueAhead (allowed - 1) cs v rest := by
  obtain ⟨before, after, rfl, blanks, left⟩ := afterSpace_split cs
  rw [Json.value, left] at found
  -- What is read after the blanks is the text of a value, to which the blanks can be added.
  suffices ValueAhead (allowed - 1) after v rest by
    obtain ⟨text, after', rfl, spelled, rfl⟩ := this
    have whole := Spelled.blanks blanks spelled (List.forall_mem_nil _)
    exact ⟨before ++ text ++ [], after', by simp, whole, rfl⟩
  split at found
  · cases found
  · rename_i b others octets
    have consumed {c : Char} (ascii : c.toNat < 0x80) (same : b = octet c) :
        ∃ after', after = c :: after' ∧ others = Octets.ofChars after' :=
      eq_cons_of_octet ascii (same ▸ octets)
    split_ifs at found with isN isT isF isMinus digit isQuote isBracket shallow isBrace shallow
    · obtain ⟨tail, rfl, rfl⟩ := consumed (by decide) isN
      obtain ⟨rfl, after', rfl, rfl⟩ := word_accepts (by simp) found
      exact ⟨['n', 'u', 'l', 'l'], after', rfl, .null, rfl⟩
    · obtain ⟨tail, rfl, rfl⟩ := consumed (by decide) isT
      obtain ⟨rfl, after', rfl, rfl⟩ := word_accepts (by simp) found
      exact ⟨['t', 'r', 'u', 'e'], after', rfl, .true, rfl⟩
    · obtain ⟨tail, rfl, rfl⟩ := consumed (by decide) isF
      obtain ⟨rfl, after', rfl, rfl⟩ := word_accepts (by simp) found
      exact ⟨['f', 'a', 'l', 's', 'e'], after', rfl, .false, rfl⟩
    · obtain ⟨tail, rfl, rfl⟩ := consumed (by decide) isMinus
      obtain ⟨⟨n, _⟩, read, same⟩ := Except.map_eq_ok_iff.mp found
      cases same
      obtain ⟨magnitude, after', rfl, rfl, numeral⟩ := unsigned_accepts read
      exact ⟨'-' :: magnitude, after', rfl, .number numeral, rfl⟩
    · obtain ⟨⟨n, _⟩, read, same⟩ := Except.map_eq_ok_iff.mp found
      cases same
      rw [← octets] at read
      obtain ⟨magnitude, after', rfl, rfl, numeral⟩ := unsigned_accepts read
      exact ⟨magnitude, after', rfl, .number numeral, rfl⟩
    · obtain ⟨tail, rfl, rfl⟩ := consumed (by decide) isQuote
      obtain ⟨⟨s, _⟩, read, same⟩ := Except.map_eq_ok_iff.mp found
      cases same
      obtain ⟨inside, after', rfl, quotes, rfl⟩ := textValue_accepts read
      exact ⟨'"' :: inside, after', rfl, .text quotes, rfl⟩
    · cases found
    · obtain ⟨tail, rfl, rfl⟩ := consumed (by decide) isBracket
      obtain ⟨⟨vs, _⟩, read, same⟩ := Except.map_eq_ok_iff.mp found
      cases same
      obtain ⟨list, before', after', spelled, rfl, blanks', rfl, rfl⟩ := accepts.items read
      have listed := spelled_list spelled blanks'
      rw [show allowed - 1 - 1 + 1 = allowed - 1 by omega] at listed
      exact ⟨_, after', by simp, listed, rfl⟩
    · cases found
    · obtain ⟨tail, rfl, rfl⟩ := consumed (by decide) isBrace
      obtain ⟨⟨entries, _⟩, read, same⟩ := Except.map_eq_ok_iff.mp found
      cases same
      obtain ⟨list, before', after', named, spelled, rfl, blanks', rfl, rfl⟩ := accepts.members read
      have listed := spelled_object named spelled blanks'
      rw [show allowed - 1 - 1 + 1 = allowed - 1 by omega] at listed
      exact ⟨_, after', by simp, listed, rfl⟩
    · cases found

theorem items_accepts {allowed index : Nat} {vs : List Json} {rest : Octets}
    (found : items (fuel + 1) allowed index (Octets.ofChars cs) = .ok (vs, rest)) :
    ItemsAhead (allowed - 1) (index = 0) cs vs rest := by
  rw [Json.items] at found
  obtain ⟨⟨more, left⟩, next, found⟩ := Except.bind_eq_ok_iff.mp found
  have ahead := nextItem_accepts (Except.mapError_eq_ok_iff.mp next)
  cases more with
  | false =>
    cases found
    obtain ⟨before, after, blanks, rfl, rfl⟩ := Ends.inBrackets ahead (index = 0)
    exact ⟨[], before, after, List.forall_mem_nil _, rfl, blanks, rfl, rfl⟩
  | true =>
    obtain ⟨between, after, blanks, leads, rfl⟩ := ahead
    obtain ⟨⟨v, left⟩, first, found⟩ := Except.bind_eq_ok_iff.mp found
    obtain ⟨⟨others, left'⟩, later, found⟩ := Except.bind_eq_ok_iff.mp found
    cases found
    obtain ⟨text, after, rfl, spelled, rfl⟩ := accepts.value (Except.mapError_eq_ok_iff.mp first)
    obtain ⟨list, before', after, each, rfl, blanks', rfl, rfl⟩ := accepts.items later
    have whole : between ++ (text ++ (before' ++ (inBrackets ']' (index + 1 = 0) (list.map (·.1)) ++
        after))) = (between ++ text ++ before') ++ (commaTail ']' (list.map (·.1)) ++ after) := by
      simp [inBrackets]
    rw [whole] at leads
    obtain ⟨before, blanks'', rfl⟩ := leads.inBrackets
    exact ⟨(between ++ text ++ before', v) :: list, before, after,
      List.forall_mem_cons.mpr ⟨.blanks blanks spelled blanks', each⟩, rfl, blanks'', rfl, rfl⟩

theorem members_accepts {allowed : Nat} {first : Bool} {entries : List (String × Json)} {rest : Octets}
    (found : members (fuel + 1) allowed first (Octets.ofChars cs) = .ok (entries, rest)) :
    MembersAhead (allowed - 1) first cs entries rest := by
  rw [Json.members] at found
  obtain ⟨⟨name, left⟩, next, found⟩ := Except.bind_eq_ok_iff.mp found
  have ahead := memberName_accepts next
  cases name with
  | none =>
    cases found
    obtain ⟨before, after, blanks, rfl, rfl⟩ := Ends.inBrackets ahead first
    exact ⟨[], before, after, List.forall_mem_nil _, List.forall_mem_nil _, rfl, blanks, rfl, rfl⟩
  | some name =>
    obtain ⟨between, quoted, after, blanks, quotes, leads, rfl⟩ := ahead
    obtain ⟨⟨v, left⟩, item, found⟩ := Except.bind_eq_ok_iff.mp found
    obtain ⟨⟨others, left'⟩, later, found⟩ := Except.bind_eq_ok_iff.mp found
    cases found
    obtain ⟨_, marked, item⟩ := Except.bind_eq_ok_iff.mp (Except.mapError_eq_ok_iff.mp item)
    obtain ⟨before', after, blanks', rfl, rfl⟩ := colon_accepts marked
    obtain ⟨text, after, rfl, spelled, rfl⟩ := accepts.value item
    obtain ⟨list, before'', after, named, each, rfl, blanks'', rfl, rfl⟩ := accepts.members later
    let member : Member := ⟨between, quoted, before', text ++ before'', name, v⟩
    have whole : between ++ (quoted ++ (before' ++ ':' :: (text ++ (before'' ++
        (inBrackets '\x7d' false (list.map Member.chars) ++ after))))) =
          member.chars ++ (commaTail '\x7d' (list.map Member.chars) ++ after) := by
      simp [inBrackets, member, Member.chars]
    rw [whole] at leads
    obtain ⟨before, blanks''', rfl⟩ := leads.inBrackets
    have spelled' := Spelled.blanks (List.forall_mem_nil _) spelled blanks''
    exact ⟨member :: list, before, after,
      List.forall_mem_cons.mpr ⟨⟨blanks, quotes, blanks'⟩, named⟩,
      List.forall_mem_cons.mpr ⟨spelled', each⟩, rfl, blanks''', rfl, rfl⟩

end Step

/-- The readers of values, items and members accept only what is spelled, by induction on what is
left to read. -/
theorem accepts (fuel : Nat) : Accepts fuel := by
  induction fuel with
  | zero => exact accepts_zero
  | succ fuel ih => exact ⟨value_accepts ih, items_accepts ih, members_accepts ih⟩

/-- Holds of a text that writes a value, nested to the usual depth at most. -/
def IsText (cs : List Char) (v : Json) : Prop :=
  ∃ depth < usualDepth, Spelled Numeral depth cs v

/-- The texts that are read are the texts of values. -/
theorem read_eq_ok_iff {s : String} {v : Json} :
    Json.read (Octets.ofText s) = .ok v ↔ IsText s.toList v := by
  refine ⟨fun found => ?_, fun ⟨depth, deep, spelled⟩ => spelled.reads.readTo deep⟩
  obtain ⟨⟨w, rest⟩, read, finished⟩ := Except.bind_eq_ok_iff.mp (Except.mapError_eq_ok_iff.mp found)
  obtain ⟨text, after, split, spelled, rfl⟩ := (accepts _).value read
  obtain ⟨blanks, more, rfl, blank, left⟩ := afterSpace_split after
  rw [complete, left] at finished
  split at finished
  · rename_i ended
    cases finished
    have none : more = [] := by
      have longer := Octets.length_le_length_ofChars more
      rw [ended] at longer
      exact List.length_eq_zero_iff.mp (Nat.le_zero.mp longer)
    have whole := Spelled.blanks (List.forall_mem_nil _) spelled blank
    refine ⟨usualDepth - 1, by decide, ?_⟩
    rw [split, none]
    simpa using whole
  · cases finished

end WorkflowKit.Json
