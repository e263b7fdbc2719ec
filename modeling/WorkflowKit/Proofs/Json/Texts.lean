import WorkflowKit.Json.Reading
import WorkflowKit.Proofs.Json.Encoding
import WorkflowKit.Proofs.Text.Decoding

namespace WorkflowKit.Json

theorem ofChars_cons_of_ascii {c : Char} (ascii : c.toNat < 0x80) (cs : List Char) :
    Octets.ofChars (c :: cs) = octet c :: Octets.ofChars cs := by
  rw [Octets.ofChars_cons, Octets.encoded_of_ascii ascii]
  rfl

theorem toNat_octet {c : Char} (ascii : c.toNat < 0x80) : (octet c).toNat = c.toNat :=
  Nat.mod_eq_of_lt (show c.toNat < 256 by omega)

theorem octet_inj {c d : Char} (first : c.toNat < 0x80) (second : d.toNat < 0x80)
    (same : octet c = octet d) : c = d :=
  Char.toNat_inj.mp (by rw [← toNat_octet first, same, toNat_octet second])

theorem ascii_of_toLower {c : Char} (ascii : c.toLower.toNat < 0x80) : c.toNat < 0x80 := by
  unfold Char.toLower at ascii
  split at ascii
  · rename_i upper
    have bound : c.val.toNat ≤ 90 := upper.2
    exact Nat.lt_of_le_of_lt bound (by decide)
  · exact ascii

/-- A digit is read in letters of either case. -/
theorem hexValue_of_digit {c : Char} {i : Nat}
    (digit : "0123456789abcdef".toList[i]? = some c.toLower) :
    c.toNat < 0x80 ∧ hexValue (octet c) = some i := by
  have below : i < 16 := (List.getElem?_eq_some_iff.mp digit).1
  have plain : ∀ d ∈ "0123456789abcdef".toList, d.toNat < 0x80 := by simp
  have ascii := ascii_of_toLower (plain _ (List.mem_of_getElem? digit))
  refine ⟨ascii, ?_⟩
  have each : ∀ n < 0x80, ∀ i < 16, "0123456789abcdef".toList[i]? = some (Char.ofNat n).toLower →
      hexValue (octet (Char.ofNat n)) = some i := by decide +kernel
  have found := each c.toNat ascii i below
  rw [Char.ofNat_toNat] at found
  exact found digit

theorem HexForm.read {ds : List Char} {n : Nat} (form : HexForm ds n) (rest : Octets) :
    ∃ a b c d : UInt8, Octets.ofChars ds = [a, b, c, d] ∧
      fourDigits (a :: b :: c :: d :: rest) = .ok n := by
  cases form with
  | @digits a b c d i j k l first second third fourth =>
    obtain ⟨asciiA, valueA⟩ := hexValue_of_digit first
    obtain ⟨asciiB, valueB⟩ := hexValue_of_digit second
    obtain ⟨asciiC, valueC⟩ := hexValue_of_digit third
    obtain ⟨asciiD, valueD⟩ := hexValue_of_digit fourth
    refine ⟨octet a, octet b, octet c, octet d, ?_, ?_⟩
    · rw [ofChars_cons_of_ascii asciiA, ofChars_cons_of_ascii asciiB, ofChars_cons_of_ascii asciiC,
        ofChars_cons_of_ascii asciiD, Octets.ofChars_nil]
    · have number : hexNumber [octet a, octet b, octet c, octet d] =
          some (((i * 16 + j) * 16 + k) * 16 + l) := by
        simp [hexNumber, valueA, valueB, valueC, valueD]
      have four : (octet a :: octet b :: octet c :: octet d :: rest).take 4 =
          [octet a, octet b, octet c, octet d] := rfl
      have long : ¬ (octet a :: octet b :: octet c :: octet d :: rest).length < 4 := by
        simp only [List.length_cons]
        omega
      have same : ((i * 16 + j) * 16 + k) * 16 + l = i * 0x1000 + j * 0x100 + k * 0x10 + l := by
        omega
      rw [fourDigits, if_neg long, four, number, same]

theorem valid_toNat (c : Char) : c.toNat < 0xD800 ∨ 0xDFFF < c.toNat ∧ c.toNat < 0x110000 :=
  c.valid

theorem escapedNumber_of_form {ds : List Char} {c : Char} (form : HexForm ds c.toNat) (rest : Octets) :
    escapedNumber (Octets.ofChars ds ++ rest) = .ok (c, 4) := by
  obtain ⟨a, b, c', d, octets, number⟩ := form.read rest
  have valid := valid_toNat c
  have notLow : ¬ (0xDC00 ≤ c.toNat ∧ c.toNat ≤ 0xDFFF) := by omega
  have notHigh : c.toNat < 0xD800 ∨ 0xDBFF < c.toNat := by omega
  simp only [octets, List.cons_append, List.nil_append, escapedNumber, number, bind, Except.bind,
    if_neg notLow, if_pos notHigh, Char.ofNat_toNat]

/-- A character beyond 0xFFFF is read from two groups of digits, the first a high surrogate and the
second a low one. -/
theorem escapedNumber_of_pair {high low : List Char} {h l : Nat} {c : Char} (first : HexForm high h)
    (second : HexForm low l) (least : 0xD800 ≤ h) (most : h < 0xDC00) (least' : 0xDC00 ≤ l)
    (most' : l < 0xE000) (number : c.toNat = 0x10000 + (h - 0xD800) * 0x400 + (l - 0xDC00))
    (rest : Octets) :
    escapedNumber (Octets.ofChars (high ++ '\\' :: 'u' :: low) ++ rest) = .ok (c, 10) := by
  obtain ⟨e, f, g, i, octets', read'⟩ := second.read rest
  obtain ⟨a, b, c', d, octets, read⟩ :=
    first.read (octet '\\' :: octet 'u' :: e :: f :: g :: i :: rest)
  have input : Octets.ofChars (high ++ '\\' :: 'u' :: low) ++ rest =
      a :: b :: c' :: d :: octet '\\' :: octet 'u' :: e :: f :: g :: i :: rest := by
    rw [Octets.ofChars_append, octets, ofChars_cons_of_ascii (by decide),
      ofChars_cons_of_ascii (by decide), octets']
    rfl
  have notLow : ¬ (0xDC00 ≤ h ∧ h ≤ 0xDFFF) := by omega
  have isHigh : ¬ (h < 0xD800 ∨ 0xDBFF < h) := by omega
  have isLow : ¬ (l < 0xDC00 ∨ 0xDFFF < l) := by omega
  have value : Char.ofNat ((h - 0xD800) * 0x400 + (l - 0xDC00) + 0x10000) = c := by
    have same : (h - 0xD800) * 0x400 + (l - 0xDC00) + 0x10000 = c.toNat := by omega
    rw [same, Char.ofNat_toNat]
  simp only [input, escapedNumber, read, bind, Except.bind, if_neg notLow, if_neg isHigh,
    List.drop_succ_cons, List.drop_zero, ne_eq, not_true, if_false, read', if_neg isLow, value]

theorem shortEscape_of_mem {letter c : Char} (member : (letter, c) ∈ shortEscapes) :
    letter.toNat < 0x80 ∧ shortEscape (octet letter) = some c := by
  have each : ∀ pair ∈ shortEscapes,
      pair.1.toNat < 0x80 ∧ shortEscape (octet pair.1) = some pair.2 := by decide
  exact each (letter, c) member

/-- Octets that are no quote, no backslash and no control characters are taken as they are. -/
theorem textOctets_plain {bs : Octets}
    (plain : ∀ b ∈ bs, b ≠ octet '"' ∧ b ≠ octet '\\' ∧ 0x20 ≤ b.toNat) (rest : Octets) :
    textOctets (bs ++ rest) =
      (textOctets rest).map fun (octets, after) => (bs ++ octets, after) := by
  induction bs with
  | nil =>
    rw [List.nil_append]
    cases textOctets rest <;> rfl
  | cons b bs ih =>
    obtain ⟨⟨notQuote, notBackslash, least⟩, others⟩ := List.forall_mem_cons.mp plain
    have notControl : ¬ b < 0x20 := by
      rw [UInt8.lt_iff_toNat_lt]
      exact Nat.not_lt.mpr least
    rw [List.cons_append, textOctets, if_neg notQuote, if_neg notBackslash, if_neg notControl,
      ih others]
    cases textOctets rest <;> rfl

theorem plain_of_mem_encoded {c : Char} (least : 0x20 ≤ c.toNat) (notQuote : c ≠ '"')
    (notBackslash : c ≠ '\\') {b : UInt8} (member : b ∈ String.utf8EncodeChar c) :
    b ≠ octet '"' ∧ b ≠ octet '\\' ∧ 0x20 ≤ b.toNat := by
  by_cases ascii : c.toNat < 0x80
  · rw [Octets.encoded_of_ascii ascii, List.mem_singleton] at member
    have other {d : Char} (different : c ≠ d) (small : d.toNat < 0x80) : b ≠ octet d :=
      fun same => different (octet_inj ascii small (member.symm.trans same))
    have value : b.toNat = c.toNat := member ▸ toNat_octet ascii
    exact ⟨other notQuote (by decide), other notBackslash (by decide), value ▸ least⟩
  · have high := Octets.high_of_mem_encoded (Nat.le_of_not_lt ascii) member
    have other {d : UInt8} (small : d.toNat < 0x80) : b ≠ d := by
      rintro rfl
      omega
    exact ⟨other (by decide), other (by decide), by omega⟩

theorem textOctets_of_escape {input rest : Octets} {c : Char} {taken : Nat}
    (read : escape input = .ok (c, taken)) (left : input.drop taken = rest) :
    textOctets (octet '\\' :: input) =
      (textOctets rest).map fun (octets, after) => (String.utf8EncodeChar c ++ octets, after) := by
  have notQuote : ¬ octet '\\' = octet '"' := by decide
  rw [textOctets, if_neg notQuote, if_pos rfl, read]
  dsimp only
  rw [left]

theorem escape_of_escapedNumber {input : Octets} {c : Char} {taken : Nat}
    (read : escapedNumber input = .ok (c, taken)) :
    escape (octet 'u' :: input) = .ok (c, taken + 1) := by
  have long : shortEscape (octet 'u') = none := by decide
  rw [escape, long]
  dsimp only
  rw [if_pos rfl, read]
  rfl

theorem length_ofChars_of_form {ds : List Char} {n : Nat} (form : HexForm ds n) :
    (Octets.ofChars ds).length = 4 := by
  obtain ⟨_, _, _, _, octets, _⟩ := form.read []
  rw [octets]
  rfl

/-- A character is read however it is written. -/
theorem textOctets_of_spells {part : List Char} {c : Char} (spells : Spells part c)
    (rest : Octets) :
    textOctets (Octets.ofChars part ++ rest) =
      (textOctets rest).map fun (octets, after) => (String.utf8EncodeChar c ++ octets, after) := by
  cases spells with
  | plain least notQuote notBackslash =>
    rw [Octets.ofChars_cons, Octets.ofChars_nil, List.append_nil]
    exact textOctets_plain (fun b => plain_of_mem_encoded least notQuote notBackslash) rest
  | @short letter _ listed =>
    obtain ⟨ascii, stands⟩ := shortEscape_of_mem listed
    rw [ofChars_cons_of_ascii (by decide), ofChars_cons_of_ascii ascii, Octets.ofChars_nil]
    have read : escape (octet letter :: rest) = .ok (c, 1) := by rw [escape, stands]
    exact textOctets_of_escape read rfl
  | @number ds _ form =>
    rw [ofChars_cons_of_ascii (by decide), ofChars_cons_of_ascii (by decide), List.cons_append,
      List.cons_append]
    refine textOctets_of_escape (escape_of_escapedNumber (escapedNumber_of_form form rest)) ?_
    rw [List.drop_succ_cons]
    exact List.drop_left' (length_ofChars_of_form form)
  | @pair high low h l _ first second least most least' most' number =>
    rw [List.cons_append, List.cons_append, ofChars_cons_of_ascii (by decide),
      ofChars_cons_of_ascii (by decide), List.cons_append, List.cons_append]
    refine textOctets_of_escape (escape_of_escapedNumber
      (escapedNumber_of_pair first second least most least' most' number rest)) ?_
    rw [List.drop_succ_cons]
    refine List.drop_left' ?_
    rw [Octets.ofChars_append, ofChars_cons_of_ascii (by decide), ofChars_cons_of_ascii (by decide),
      List.length_append, length_ofChars_of_form first, List.length_cons, List.length_cons,
      length_ofChars_of_form second]

/-- A text is read as the octets of its characters, however they are spelled. -/
theorem textOctets_of_spellsAll {cs ds : List Char} (spells : SpellsAll cs ds) (rest : Octets) :
    textOctets (Octets.ofChars cs ++ octet '"' :: rest) = .ok (Octets.ofChars ds, rest) := by
  induction spells with
  | nil =>
    rw [Octets.ofChars_nil, List.nil_append, textOctets, if_pos rfl]
  | cons first _ ih =>
    rw [Octets.ofChars_append, List.append_assoc, textOctets_of_spells first, ih,
      Octets.ofChars_cons]
    rfl

/-- What follows the first quote of a text is read up to the last one. -/
theorem Quotes.read {s : String} {cs : List Char} (quotes : Quotes s cs) :
    ∃ body, cs = '"' :: body ∧
      ∀ rest, textValue (Octets.ofChars body ++ rest) = .ok (s, rest) := by
  cases quotes with
  | @quoted inside spells =>
    refine ⟨inside ++ ['"'], rfl, fun rest => ?_⟩
    have last : Octets.ofChars ['"'] = [octet '"'] := rfl
    rw [textValue, Octets.ofChars_append, last, List.append_assoc, List.singleton_append,
      textOctets_of_spellsAll spells]
    dsimp only [bind, Except.bind]
    rw [Octets.text?_ofChars, String.ofList_toList]

end WorkflowKit.Json
