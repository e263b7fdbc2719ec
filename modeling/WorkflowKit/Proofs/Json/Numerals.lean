import WorkflowKit.Proofs.Except
import WorkflowKit.Proofs.Json.Tokens

namespace WorkflowKit.Json

namespace Literal

/-- A significand with a power of ten that an exponent moves. Of exponents beyond the limit only the
sign counts. -/
def shifted (significand : Nat) (start : Int) (exponent : Option Int) : Option Binary64 :=
  let moved := exponent.getD 0
  if moved.natAbs ≤ exponentLimit then scaled 4 (Binary64.ofNat significand) (start + moved)
  else if significand ≠ 0 ∧ 0 < moved then none
  else some (Binary64.zero false)

/-- The magnitude of a number with a fraction, an exponent or too many digits, as it is read. -/
def float? (literal : Literal) : Option Binary64 :=
  let (first, left) := appendDigits 0 (literal.whole.map octet)
  let (all, left') := appendDigits first (literal.fraction.map octet)
  shifted all (left.length - (literal.fraction.length - left'.length : Nat)) literal.exponent

/-- The number that is read of a text, `none` if it is too large. -/
def number? (literal : Literal) : Option JsonNumber :=
  if literal.IsWhole ∧ Text.digitsValue literal.whole < 2 ^ 64 then
    some (wholeNumber literal.negative (Text.digitsValue literal.whole))
  else literal.float?.map fun x => .float (x.withSign literal.negative)

end Literal

/-- Holds of the text of a number and the number that is read of it. -/
def Numeral (cs : List Char) (n : JsonNumber) : Prop :=
  ∃ literal : Literal, literal.Writes cs ∧ literal.number? = some n

/-- The number that digits write after a number. -/
def valueFrom (n : Nat) (ds : List Char) : Nat :=
  ds.foldl (fun n c => 10 * n + (c.toNat - 0x30)) n

theorem next_digit {d : Char} (digit : d.isDigit) (n : Nat) :
    n * 10 + digitValue (octet d) = 10 * n + (d.toNat - 0x30) := by
  rw [(isDigit_of_digit digit).2.2]
  omega

theorem le_valueFrom (n : Nat) (ds : List Char) : n ≤ valueFrom n ds := by
  induction ds generalizing n with
  | nil => exact Nat.le_refl n
  | cons d ds ih => exact Nat.le_trans (show n ≤ 10 * n + (d.toNat - 0x30) by omega) (ih _)

/-- Digits are read whole as long as their value is below two to the power of 64. -/
theorem appendDigits_of_lt {ds : List Char} (digits : ∀ d ∈ ds, d.isDigit) {n : Nat}
    (small : valueFrom n ds < 2 ^ 64) : appendDigits n (ds.map octet) = (valueFrom n ds, []) := by
  induction ds generalizing n with
  | nil => rfl
  | cons d ds ih =>
    obtain ⟨digit, others⟩ := List.forall_mem_cons.mp digits
    have within : 10 * n + (d.toNat - 0x30) ≤ significandLimit :=
      Nat.le_sub_one_of_lt (Nat.lt_of_le_of_lt (le_valueFrom _ ds) small)
    rw [List.map_cons, appendDigits, next_digit digit, if_pos within, ih others small]
    rfl

theorem appendDigits_of_le {ds : List Char} (digits : ∀ d ∈ ds, d.isDigit) {n : Nat}
    (fits : n < 2 ^ 64) (large : 2 ^ 64 ≤ valueFrom n ds) :
    (appendDigits n (ds.map octet)).2 ≠ [] := by
  induction ds generalizing n with
  | nil => exact absurd fits (Nat.not_lt.mpr large)
  | cons d ds ih =>
    obtain ⟨digit, others⟩ := List.forall_mem_cons.mp digits
    rw [List.map_cons, appendDigits, next_digit digit]
    split
    · rename_i within
      exact ih others (Nat.lt_of_le_sub_one (by decide) within) large
    · exact List.cons_ne_nil _ _

/-- All digits are counted exactly if the number fits into 64 bits. -/
theorem isEmpty_left_iff {ds : List Char} (digits : ∀ d ∈ ds, d.isDigit) :
    (appendDigits 0 (ds.map octet)).2.isEmpty ↔ Text.digitsValue ds < 2 ^ 64 := by
  rw [List.isEmpty_iff]
  refine ⟨fun none => Nat.lt_of_not_le fun large => ?_, fun small => ?_⟩
  · exact appendDigits_of_le digits (by decide) large none
  · rw [appendDigits_of_lt digits small]

theorem exponentValue_of_le {ds : List Char} (digits : ∀ d ∈ ds, d.isDigit) {n : Nat}
    (small : valueFrom n ds ≤ exponentLimit) :
    exponentValue n (ds.map octet) = .ok (valueFrom n ds) := by
  induction ds generalizing n with
  | nil => rfl
  | cons d ds ih =>
    obtain ⟨digit, others⟩ := List.forall_mem_cons.mp digits
    have within : 10 * n + (d.toNat - 0x30) ≤ exponentLimit := (le_valueFrom _ ds).trans small
    rw [List.map_cons, exponentValue, next_digit digit, if_pos within, ih others small]
    rfl

theorem exponentValue_of_lt {ds : List Char} (digits : ∀ d ∈ ds, d.isDigit) {n : Nat}
    (fits : n ≤ exponentLimit) (large : exponentLimit < valueFrom n ds) :
    ∃ left, exponentValue n (ds.map octet) = .error left := by
  induction ds generalizing n with
  | nil => exact absurd fits (Nat.not_le.mpr large)
  | cons d ds ih =>
    obtain ⟨digit, others⟩ := List.forall_mem_cons.mp digits
    rw [List.map_cons, exponentValue, next_digit digit]
    split
    · rename_i within
      exact ih others within large
    · exact ⟨_, rfl⟩

variable {negative : Bool} {significand : Nat} {start : Int} {rest : Octets}

theorem octet_digit_ne {d : Char} (digit : d.isDigit) {c : Char} (ascii : c.toNat < 0x80)
    (other : c.isDigit = false) : octet d ≠ octet c := by
  intro same
  obtain rfl := octet_inj (isDigit_of_digit digit).1 ascii same
  exact Bool.false_ne_true (other.symm.trans digit)

/-- What is read of a number with a significand and an exponent. -/
def scaledNumber (negative : Bool) (significand : Nat) (start : Int) (exponent : Option Int)
    (rest : Octets) : Option (JsonNumber × Octets) :=
  (Literal.shifted significand start exponent).map fun x => (.float (x.withSign negative), rest)

/-- Of a float the reader has the significand and the power of ten, which it scales. -/
theorem floatNumber_toOption {power : Int} :
    (floatNumber negative significand power rest).toOption =
      (scaled 4 (Binary64.ofNat significand) power).map fun x =>
        (.float (x.withSign negative), rest) := by
  rw [floatNumber]
  cases scaled 4 (Binary64.ofNat significand) power <;> rfl

theorem scaledNumber_none :
    scaledNumber negative significand start none rest =
      (floatNumber negative significand start rest).toOption := by
  have within : (0 : Int).natAbs ≤ exponentLimit := Nat.zero_le _
  rw [scaledNumber, Literal.shifted, Option.getD_none, if_pos within, Int.add_zero,
    floatNumber_toOption]

/-- What is read of an exponent after its sign, for any text of digits. -/
theorem exponent_sign {sign ds : List Char} {below : Bool} (signed : (sign, below) ∈ exponentSigns)
    (digits : Digits ds) (other : NoDigit rest) :
    exponent negative significand start (Octets.ofChars sign ++ (ds.map octet ++ rest)) =
      match exponentValue 0 (ds.map octet) with
      | .ok value =>
        floatNumber negative significand (if below then start - value else start + value) rest
      | .error left =>
        if significand ≠ 0 ∧ ¬ below then stop .numberTooLarge (left ++ rest)
        else .ok (.float (Binary64.zero negative), rest) := by
  obtain ⟨taken, left⟩ := span_digits digits.all other
  cases ds with
  | nil => exact absurd rfl digits.nonempty
  | cons d ds =>
    have digit := digits.all d List.mem_cons_self
    have isDigit := (isDigit_of_digit digit).2.1
    have notMinus := octet_digit_ne digit (c := '-') (by decide) (by decide)
    have notPlus := octet_digit_ne digit (c := '+') (by decide) (by decide)
    rw [List.map_cons, List.cons_append] at taken left ⊢
    have plus : ¬ octet '+' = octet '-' := by decide
    simp only [exponentSigns, List.mem_cons, Prod.mk.injEq, List.not_mem_nil, or_false] at signed
    rcases signed with ⟨rfl, rfl⟩ | ⟨rfl, rfl⟩ | ⟨rfl, rfl⟩
    · cases value : exponentValue 0 (octet d :: ds.map octet) <;>
        simp [exponent, notMinus, notPlus, isDigit, taken, left, value]
    · cases value : exponentValue 0 (octet d :: ds.map octet) <;>
        simp [exponent, ofChars_cons_of_ascii, plus, isDigit, taken, left, value]
    · cases value : exponentValue 0 (octet d :: ds.map octet) <;>
        simp [exponent, ofChars_cons_of_ascii, isDigit, taken, left, value]

theorem exponent_toOption {sign ds : List Char} {below : Bool}
    (signed : (sign, below) ∈ exponentSigns) (digits : Digits ds) (other : NoDigit rest) :
    (exponent negative significand start (Octets.ofChars sign ++ (ds.map octet ++ rest))).toOption =
      scaledNumber negative significand start
        (some (if below then -Text.digitsValue ds else Text.digitsValue ds)) rest := by
  have size : (if below then -(Text.digitsValue ds : Int) else Text.digitsValue ds).natAbs =
      Text.digitsValue ds := by cases below <;> simp
  rw [exponent_sign signed digits other, scaledNumber, Literal.shifted, Option.getD_some, size]
  rcases Nat.lt_or_ge exponentLimit (Text.digitsValue ds) with large | small
  · obtain ⟨left, beyond⟩ := exponentValue_of_lt digits.all (Nat.zero_le _) large
    have nonzero : Text.digitsValue ds ≠ 0 := Nat.ne_zero_of_lt large
    rw [beyond, if_neg (Nat.not_le.mpr large)]
    cases below with
    | false =>
      by_cases zero : significand = 0
      · simp [zero, Except.toOption, Binary64.withSign, Binary64.zero]
      · simp [zero, nonzero, Nat.pos_iff_ne_zero, stop, Except.toOption]
    | true => simp [Except.toOption, Binary64.withSign, Binary64.zero]
  · have power : (if below then start - Text.digitsValue ds else start + Text.digitsValue ds) =
        start + (if below then -(Text.digitsValue ds : Int) else Text.digitsValue ds) := by
      cases below <;> rfl
    rw [exponentValue_of_le digits.all (n := 0) small, if_pos small]
    exact power ▸ floatNumber_toOption

/-- Holds of octets that go on neither with digits nor with an exponent. -/
def NoExponent (rest : Octets) : Prop :=
  ∀ b ∈ rest.head?, ¬ startsExponent b

theorem startsExponent_mark {mark : Char} (marks : mark = 'e' ∨ mark = 'E') :
    mark.toNat < 0x80 ∧ startsExponent (octet mark) ∧ octet mark ≠ octet '.' ∧
      ¬ isDigit (octet mark) := by
  rcases marks with rfl | rfl <;> decide

theorem ExponentText.noDigit {exponent : Option Int} {text : List Char}
    (writes : ExponentText exponent text) (noDigit : NoDigit rest) :
    NoDigit (Octets.ofChars text ++ rest) := by
  cases writes with
  | none => exact noDigit
  | some marks =>
    obtain ⟨ascii, _, _, notDigit⟩ := startsExponent_mark marks
    rw [ofChars_cons_of_ascii ascii]
    rintro b first
    exact Option.some.inj first ▸ notDigit

/-- A number with a power of ten is read up to the end of its exponent. -/
theorem afterDigits_toOption {exponent : Option Int} {text : List Char}
    (writes : ExponentText exponent text) (noDigit : NoDigit rest)
    (ends : exponent = none → NoExponent rest) :
    (afterDigits negative significand start (Octets.ofChars text ++ rest)).toOption =
      scaledNumber negative significand start exponent rest := by
  cases writes with
  | none =>
    rw [scaledNumber_none, Octets.ofChars_nil, List.nil_append]
    cases rest with
    | nil => rfl
    | cons b rest => rw [afterDigits, if_neg (ends rfl b rfl)]
  | @some mark sign ds below marks signed digits =>
    obtain ⟨ascii, starts, _⟩ := startsExponent_mark marks
    rw [ofChars_cons_of_ascii ascii, List.cons_append, afterDigits, if_pos starts,
      Octets.ofChars_append, ofChars_digits digits.all, List.append_assoc]
    exact exponent_toOption signed digits noDigit

theorem fraction_digits {ds : List Char} (digits : Digits ds) (other : NoDigit rest) :
    fraction negative significand start (ds.map octet ++ rest) =
      let (all, left) := appendDigits significand (ds.map octet)
      afterDigits negative all (start - (ds.length - left.length : Nat)) rest := by
  obtain ⟨taken, left⟩ := span_digits digits.all other
  have nonempty : (ds.map octet).isEmpty = false := by simp [digits.nonempty]
  simp only [fraction, taken, left, nonempty, Bool.false_eq_true, if_false, List.length_map]

/-- What is read after the digits before a point, of which `left` are not counted. -/
def afterWhole (negative : Bool) (significand : Nat) (left rest : Octets) :
    Except Stop (JsonNumber × Octets) :=
  match rest with
  | [] =>
    if left.isEmpty then .ok (wholeNumber negative significand, [])
    else floatNumber negative significand left.length []
  | b :: after =>
    if b = octet '.' then fraction negative significand left.length after
    else if startsExponent b then exponent negative significand left.length after
    else if left.isEmpty then .ok (wholeNumber negative significand, rest)
    else floatNumber negative significand left.length rest

/-- A whole number is read digit by digit, and what does not fit counts as a power of ten. -/
theorem unsigned_whole {ds : List Char} (whole : Whole ds) (other : NoDigit rest) :
    unsigned negative (ds.map octet ++ rest) =
      let (significand, left) := appendDigits 0 (ds.map octet)
      afterWhole negative significand left rest := by
  obtain ⟨taken, left⟩ := span_digits whole.all other
  cases ds with
  | nil => exact absurd rfl whole.nonempty
  | cons d ds =>
    have digit := (isDigit_of_digit (whole.all d List.mem_cons_self)).2.1
    rw [List.map_cons, List.cons_append] at taken left ⊢
    rw [unsigned, if_neg (not_not.mpr digit), if_neg (whole.no_digit_after_zero other), taken, left]
    rfl

/-- A number ends where neither a point nor an exponent follows. -/
theorem afterWhole_end {left : Octets} (noExponent : NoExponent rest)
    (noPoint : ∀ b ∈ rest.head?, b ≠ octet '.') :
    afterWhole negative significand left rest =
      if left.isEmpty then .ok (wholeNumber negative significand, rest)
      else floatNumber negative significand left.length rest := by
  cases rest with
  | nil => rfl
  | cons b rest => rw [afterWhole, if_neg (noPoint b rfl), if_neg (noExponent b rfl)]

namespace Literal

/-- Holds of octets that do not go on with a number. -/
structure Ends (literal : Literal) (rest : Octets) : Prop where
  digit : NoDigit rest
  exponent : literal.exponent = none → NoExponent rest
  point : literal.IsWhole → ∀ b ∈ rest.head?, b ≠ octet '.'

theorem ends_of_closed {rest : Octets} (closed : Closed rest) (literal : Literal) :
    literal.Ends rest :=
  ⟨closed.noDigit, fun _ b first => (closed b first).2.2, fun _ b first => (closed b first).2.1⟩

theorem number?_of_whole {literal : Literal} (whole : literal.IsWhole)
    (small : Text.digitsValue literal.whole < 2 ^ 64) :
    literal.number? = some (wholeNumber literal.negative (Text.digitsValue literal.whole)) :=
  if_pos ⟨whole, small⟩

/-- A number that is no integer of 64 bits is read with a significand and a power of ten. -/
theorem number?_map_of_float {literal : Literal}
    (float : ¬ (literal.IsWhole ∧ Text.digitsValue literal.whole < 2 ^ 64)) :
    (literal.number?.map fun n => (n, rest)) =
      let (first, left) := appendDigits 0 (literal.whole.map octet)
      let (all, left') := appendDigits first (literal.fraction.map octet)
      scaledNumber literal.negative all
        (left.length - (literal.fraction.length - left'.length : Nat)) literal.exponent rest := by
  rw [number?, if_neg float, Option.map_map]
  rfl

/-- What is read of a number up to its end. -/
theorem WritesMagnitude.unsigned {literal : Literal} {cs : List Char}
    (writes : literal.WritesMagnitude cs) (ends : literal.Ends rest) :
    (unsigned literal.negative (Octets.ofChars cs ++ rest)).toOption =
      literal.number?.map fun n => (n, rest) := by
  obtain ⟨negative, ds, fs, e⟩ := literal
  obtain ⟨noDigit, noExponent, noPoint⟩ := ends
  cases writes with
  | @parts fraction exponent whole fractional exponential =>
    dsimp only at whole fractional exponential noExponent ⊢
    have noDigit' := exponential.noDigit noDigit
    rw [Octets.ofChars_append, ofChars_digits whole.all, List.append_assoc, Octets.ofChars_append,
      List.append_assoc]
    -- A fraction or an exponent makes the number a float. Only bare digits can be an integer.
    cases fractional with
    | some digits =>
      have dot : NoDigit (octet '.' :: (Octets.ofChars fs ++ (Octets.ofChars exponent ++ rest))) := by
        intro b first
        exact Option.some.inj first ▸ by decide
      rw [ofChars_cons_of_ascii (by decide), List.cons_append, unsigned_whole whole dot,
        number?_map_of_float fun both => digits.nonempty both.1.1]
      dsimp only [afterWhole]
      rw [if_pos rfl, ofChars_digits digits.all, fraction_digits digits noDigit']
      exact afterDigits_toOption exponential noDigit noExponent
    | none =>
      rw [Octets.ofChars_nil, List.nil_append, unsigned_whole whole noDigit']
      cases exponential with
      | @some mark sign es below marks signed digits =>
        obtain ⟨ascii, starts, notPoint, _⟩ := startsExponent_mark marks
        rw [number?_map_of_float fun both => Option.some_ne_none _ both.1.2,
          ofChars_cons_of_ascii ascii, List.cons_append]
        dsimp only [afterWhole]
        rw [if_neg notPoint, if_pos starts, Octets.ofChars_append, ofChars_digits digits.all,
          List.append_assoc]
        exact exponent_toOption signed digits noDigit
      | none =>
        rw [Octets.ofChars_nil, List.nil_append]
        dsimp only
        rw [afterWhole_end (noExponent rfl) (noPoint ⟨rfl, rfl⟩)]
        -- Bare digits of which the value is too large for 64 bits are a float after all.
        by_cases small : Text.digitsValue ds < 2 ^ 64
        · have counted := appendDigits_of_lt whole.all (n := 0) small
          rw [counted, number?_of_whole ⟨rfl, rfl⟩ small]
          rfl
        · have left := (isEmpty_left_iff whole.all).not.mpr small
          rw [if_neg left, number?_map_of_float fun both => small both.2, ← scaledNumber_none]
          rfl

end Literal

namespace Numeral

variable {cs : List Char} {n : JsonNumber}

/-- The text of a number is read up to its end, provided that no other digits follow. -/
theorem unsigned (numeral : Numeral cs n) :
    ∃ negative magnitude, (cs = if negative then '-' :: magnitude else magnitude) ∧
      (∀ d ∈ magnitude.head?, d.isDigit) ∧ magnitude ≠ [] ∧
        ∀ rest, Closed rest → unsigned negative (Octets.ofChars magnitude ++ rest) = .ok (n, rest) := by
  obtain ⟨literal, ⟨magnitude, writes, text⟩, found⟩ := numeral
  have first : magnitude.head? = literal.whole.head? ∧ magnitude ≠ [] := by
    cases writes with
    | parts whole =>
      exact ⟨List.head?_append_of_ne_nil _ whole.nonempty,
        List.append_ne_nil_of_left_ne_nil whole.nonempty _⟩
  have digits : ∀ d ∈ literal.whole, d.isDigit := by
    cases writes with
    | parts whole => exact whole.all
  refine ⟨literal.negative, magnitude, text, fun d member => ?_, first.2, fun rest closed => ?_⟩
  · exact digits d (List.mem_of_head? (first.1 ▸ member))
  · have read := writes.unsigned (Literal.ends_of_closed closed literal)
    rw [found, Option.map_some] at read
    exact Except.eq_ok_of_toOption read

theorem begins (numeral : Numeral cs n) : Begins cs := by
  obtain ⟨negative, magnitude, rfl, digit, nonempty, _⟩ := numeral.unsigned
  cases negative with
  | true => exact begins_listed (by decide) _
  | false =>
    cases magnitude with
    | nil => exact absurd rfl nonempty
    | cons d ds => exact begins_digit (digit d rfl) ds

end Numeral

/-- Integers of 64 bits are read exactly. -/
theorem Integral.numeral {cs : List Char} {n : JsonNumber} (integral : Integral cs n) :
    Numeral cs n := by
  have writes {ds : List Char} (whole : Whole ds) (negative : Bool) :
      (⟨negative, ds, [], none⟩ : Literal).WritesMagnitude ds := by
    simpa using @Literal.WritesMagnitude.parts ⟨negative, ds, [], none⟩ _ _ whole .none .none
  cases integral with
  | @natural ds whole small =>
    exact ⟨⟨false, cs, [], none⟩, ⟨cs, writes whole false, rfl⟩,
      Literal.number?_of_whole ⟨rfl, rfl⟩ small⟩
  | @negative ds whole positive small =>
    refine ⟨⟨true, ds, [], none⟩, ⟨ds, writes whole true, rfl⟩, ?_⟩
    have within : ¬ (Text.digitsValue ds = 0 ∨ Nat.pow 2 63 < Text.digitsValue ds) := by
      have limit : Nat.pow 2 63 = 2 ^ 63 := rfl
      omega
    rw [Literal.number?_of_whole ⟨rfl, rfl⟩ (show Text.digitsValue ds < 2 ^ 64 by omega),
      wholeNumber, if_pos rfl, if_neg within]

/-- A text that encodes a value spells it. -/
theorem Encodes.spelled {depth : Nat} {cs : List Char} {v : Json} (encodes : Encodes depth cs v) :
    Spelled Numeral depth cs v :=
  (encodes_iff_spelled.mp encodes).imp fun _ _ => Integral.numeral

theorem Encodes.begins {depth : Nat} {cs : List Char} {v : Json} (encodes : Encodes depth cs v) :
    Begins cs :=
  encodes.spelled.begins fun _ _ => Numeral.begins

end WorkflowKit.Json
