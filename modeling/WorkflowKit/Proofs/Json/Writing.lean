import WorkflowKit.Json.Value
import WorkflowKit.Proofs.Decimal.Nearest
import WorkflowKit.Proofs.Json.Spelling
import Mathlib.Tactic.SplitIfs

namespace WorkflowKit

theorem digits_decimalDigits (n : Nat) : Json.Digits (decimalDigits n) :=
  ⟨Nat.toDigits_ne_nil, fun _ member =>
    Nat.isDigit_of_mem_toDigits (by decide) (by decide) member⟩

theorem head?_decimalDigits {n : Nat} (nonzero : n ≠ 0) :
    (decimalDigits n).head? ≠ some '0' := by
  induction n using Nat.strongRecOn with
  | _ n ih =>
    rw [decimalDigits, Nat.toDigits_eq_if (by decide)]
    split
    · simpa using fun zero => nonzero (Nat.digitChar_eq_zero.mp zero)
    · rename_i large
      have shorter := ih (n / 10) (by omega) (by omega)
      rwa [List.head?_append_of_ne_nil _ Nat.toDigits_ne_nil]

theorem whole_decimalDigits (n : Nat) : Json.Whole (decimalDigits n) := by
  refine ⟨digits_decimalDigits n, fun zero => ?_⟩
  rcases eq_or_ne n 0 with rfl | nonzero
  · rfl
  · exact absurd zero (head?_decimalDigits nonzero)

theorem numberForm_decimalInt (n : Int) : Json.NumberForm (decimalInt n) := by
  have magnitude : Json.Magnitude (decimalDigits n.natAbs) := by
    simpa using Json.Magnitude.parts (whole_decimalDigits n.natAbs) .none .none
  unfold decimalInt
  split
  · exact .negative magnitude
  · exact .unsigned magnitude

theorem digitsValue_decimalDigits (n : Nat) : Text.digitsValue (decimalDigits n) = n :=
  Nat.ofDigitChars_toDigits (by decide) (by decide)

theorem digitsValue_append_zeros (ds : List Char) (n : Nat) :
    Text.digitsValue (ds ++ List.replicate n '0') = Text.digitsValue ds * 10 ^ n := by
  rw [Nat.mul_comm]
  exact (Nat.ofDigitChars_append (b := 10) 0).trans Nat.ofDigitChars_replicate_zero

theorem digitsValue_zeros_append (n : Nat) (ds : List Char) :
    Text.digitsValue (List.replicate n '0' ++ ds) = Text.digitsValue ds := by
  have zero : Nat.ofDigitChars 10 (List.replicate n '0') 0 = 0 := Nat.ofDigitChars_replicate_zero
  exact (Nat.ofDigitChars_append (b := 10) 0).trans (by rw [zero]; rfl)

namespace Decimal

/-- The digits before the point, where they do not begin with a zero. -/
theorem whole_of_start {d : Decimal} (nonzero : d.digits ≠ 0) {start : List Char}
    (nonempty : start ≠ []) (digits : ∀ c ∈ start, c.isDigit)
    (first : start.head? = (decimalDigits d.digits).head?) : Json.Whole start :=
  ⟨⟨nonempty, digits⟩, fun zero => absurd (first ▸ zero) (head?_decimalDigits nonzero)⟩

/-- Holds of the digits before and after a point that stand for a number. -/
structure Parts (d : Decimal) (before after : List Char) : Prop where
  whole : Json.Whole before
  fraction : Json.Digits after
  magnitude : Text.digitsValue (before ++ after) * 10 ^ (-after.length : Int) = d.value

theorem isDigit_of_mem_zeros (n : Nat) : ∀ c ∈ List.replicate n '0', c.isDigit := by
  intro c member
  rw [List.eq_of_mem_replicate member]
  decide

/-- A whole number has a zero after its point. -/
theorem parts_of_whole {d : Decimal} (normal : d.digits ≠ 0 ∨ d.power = 0) (large : 0 ≤ d.power) :
    d.Parts (decimalDigits d.digits ++ List.replicate d.power.toNat '0') ['0'] := by
  obtain ⟨nonempty, digits⟩ := digits_decimalDigits d.digits
  refine ⟨?_, ⟨by decide, by simp⟩, ?_⟩
  · rcases normal with nonzero | none
    · exact whole_of_start nonzero (List.append_ne_nil_of_left_ne_nil nonempty _)
        (List.forall_mem_append.mpr ⟨digits, isDigit_of_mem_zeros _⟩)
        (List.head?_append_of_ne_nil _ nonempty)
    · rw [none]
      simpa using whole_decimalDigits d.digits
  · have places : (10 : ℚ) ^ d.power.toNat = 10 ^ d.power := by
      rw [← zpow_natCast, Int.toNat_of_nonneg large]
    rw [List.append_assoc, ← List.replicate_succ', digitsValue_append_zeros,
      digitsValue_decimalDigits, value, pow_succ]
    push_cast
    rw [places]
    norm_num [mul_assoc]

/-- The point stands inside the digits. -/
theorem parts_of_inside {d : Decimal} (nonzero : d.digits ≠ 0) (small : d.power < 0)
    (inside : 0 < d.point) :
    d.Parts ((decimalDigits d.digits).take d.point.toNat)
      ((decimalDigits d.digits).drop d.point.toNat) := by
  obtain ⟨nonempty, digits⟩ := digits_decimalDigits d.digits
  have place : d.point = (decimalDigits d.digits).length + d.power := rfl
  refine ⟨?_, ⟨fun none => ?_, fun c member => digits c (List.mem_of_mem_drop member)⟩, ?_⟩
  · refine whole_of_start nonzero (fun none => ?_)
      (fun c member => digits c (List.mem_of_mem_take member)) ?_
    · rcases List.take_eq_nil_iff.mp none with zero | empty
      · omega
      · exact nonempty empty
    · rw [List.head?_take, if_neg (by omega)]
  · have short := List.drop_eq_nil_iff.mp none
    omega
  · rw [List.take_append_drop, digitsValue_decimalDigits, value, List.length_drop]
    congr 2
    omega

/-- The point stands before the digits, with zeros between them. -/
theorem parts_of_before {d : Decimal} (before : d.point ≤ 0) :
    d.Parts ['0'] (List.replicate (-d.point).toNat '0' ++ decimalDigits d.digits) := by
  obtain ⟨nonempty, digits⟩ := digits_decimalDigits d.digits
  have place : d.point = (decimalDigits d.digits).length + d.power := rfl
  refine ⟨whole_decimalDigits 0, ⟨List.append_ne_nil_of_right_ne_nil _ nonempty,
    List.forall_mem_append.mpr ⟨isDigit_of_mem_zeros _, digits⟩⟩, ?_⟩
  have same : Text.digitsValue (['0'] ++ (List.replicate (-d.point).toNat '0' ++
      decimalDigits d.digits)) = d.digits :=
    (digitsValue_zeros_append ((-d.point).toNat + 1) _).trans (digitsValue_decimalDigits _)
  rw [same, value, List.length_append, List.length_replicate]
  congr 2
  omega

/-- The digits around the point of a number in positional layout. -/
theorem positional_parts {d : Decimal} (normal : d.digits ≠ 0 ∨ d.power = 0) :
    ∃ whole fraction, d.Parts whole fraction ∧ d.positional = whole ++ '.' :: fraction := by
  unfold positional
  dsimp only
  split
  · rename_i large
    exact ⟨_, _, parts_of_whole normal large, by simp⟩
  · rename_i small
    have nonzero : d.digits ≠ 0 := normal.resolve_right (by omega)
    split
    · rename_i inside
      exact ⟨_, _, parts_of_inside nonzero (by omega) inside, rfl⟩
    · exact ⟨_, _, parts_of_before (by omega), by simp⟩

/-- The positional layout is a number with a point between digits. -/
theorem magnitude_positional {d : Decimal} (normal : d.digits ≠ 0 ∨ d.power = 0) :
    Json.Magnitude d.positional := by
  obtain ⟨whole, fraction, parts, text⟩ := positional_parts normal
  rw [text]
  simpa using Json.Magnitude.parts parts.whole (.some parts.fraction) .none

/-- The exponent of a number in scientific layout. -/
def exponentText (d : Decimal) : List Char :=
  'e' :: (if d.point - 1 < 0 then '-' else '+') :: decimalDigits (d.point - 1).natAbs

theorem exponent_exponentText (d : Decimal) : Json.Exponent d.exponentText := by
  unfold exponentText
  split
  · exact .some (Or.inr (Or.inr rfl)) (digits_decimalDigits _)
  · exact .some (Or.inr (Or.inl rfl)) (digits_decimalDigits _)

/-- The parts of a number in scientific layout, and its value. -/
theorem scientific_parts (d : Decimal) :
    ∃ whole fraction text, Json.Whole whole ∧ Json.FractionText fraction text ∧
      d.scientific = whole ++ (text ++ d.exponentText) ∧
        Text.digitsValue (whole ++ fraction) * 10 ^ (d.point - 1 - fraction.length) = d.value := by
  obtain ⟨nonempty, digits⟩ := digits_decimalDigits d.digits
  have value := digitsValue_decimalDigits d.digits
  have place : d.point = (decimalDigits d.digits).length + d.power := rfl
  have power : d.value = d.digits * 10 ^ d.power := rfl
  have whole {digit : Char} (isDigit : digit.isDigit) : Json.Whole [digit] :=
    ⟨⟨List.cons_ne_nil _ _, by simpa using isDigit⟩, fun zero => by simpa using zero⟩
  unfold scientific
  dsimp only
  split
  · exact absurd ‹_› nonempty
  · rename_i digit only
    rw [only] at digits value place
    refine ⟨[digit], [], [], whole (digits digit List.mem_cons_self), .none, rfl, ?_⟩
    rw [List.append_nil, value, power, place]
    congr 2
    simp
  · rename_i digit others several all
    rw [all] at digits value place
    obtain ⟨first, rest⟩ := List.forall_mem_cons.mp digits
    refine ⟨[digit], others, '.' :: others, whole first, .some ⟨several, rest⟩, rfl, ?_⟩
    rw [List.singleton_append, value, power, place, List.length_cons]
    congr 2
    omega

theorem magnitude_scientific (d : Decimal) : Json.Magnitude d.scientific := by
  obtain ⟨whole, fraction, text, first, second, written, _⟩ := scientific_parts d
  have fraction : Json.Fraction text := by
    cases second with
    | none => exact .none
    | some digits => exact .some digits
  rw [written, ← List.append_assoc]
  exact .parts first fraction d.exponent_exponentText

end Decimal

/-- Either layout of a float is a JSON number. -/
theorem Binary64.numberForm_written {x : Binary64} (fits : x.Fits) :
    Json.NumberForm x.written := by
  have magnitude : Json.Magnitude (if -5 < x.shortest.point ∧ x.shortest.point ≤ 16
      then x.shortest.positional else x.shortest.scientific) := by
    split
    · exact Decimal.magnitude_positional (shortest_normal fits)
    · exact Decimal.magnitude_scientific _
  unfold written
  dsimp only
  split
  · exact .negative magnitude
  · exact .unsigned magnitude

namespace Json

theorem textPart_escaped (c : Char) : TextPart (escaped c) := by
  have below16 : ∀ n < 0x10, (['0', '0', '0'] ++ Nat.toDigits 16 n).length = 4 ∧
      ['0', '0', '0'] ++ Nat.toDigits 16 n ⊆ "0123456789abcdefABCDEF".toList := by decide
  have below32 : ∀ n < 0x20, 0x10 ≤ n → (['0', '0'] ++ Nat.toDigits 16 n).length = 4 ∧
      ['0', '0'] ++ Nat.toDigits 16 n ⊆ "0123456789abcdefABCDEF".toList := by decide
  unfold escaped
  split_ifs with quote backslash _ _ _ _ _ small control
  · exact .short (by decide)
  · exact .short (by decide)
  · exact .short (by decide)
  · exact .short (by decide)
  · exact .short (by decide)
  · exact .short (by decide)
  · exact .short (by decide)
  · obtain ⟨four, digits⟩ := below16 _ small
    exact .number four fun d member => digits member
  · obtain ⟨four, digits⟩ := below32 _ control (Nat.le_of_not_lt small)
    exact .number four fun d member => digits member
  · exact .plain (Nat.le_of_not_lt control) quote backslash

/-- A text is quoted as the grammar has it: control characters, quotes and backslashes are
escaped. -/
theorem quotedForm_quotedChars (cs : List Char) : QuotedForm (quotedChars cs) := by
  rw [quotedChars, List.flatMap_def]
  refine .parts _ ?_
  rw [List.forall_mem_map]
  exact fun c _ => textPart_escaped c

/-- Holds of the values of which all floats are of the format. -/
inductive Fits : Json → Prop
  | null : Fits .null
  | bool (value : Bool) : Fits (.bool value)
  | integer (value : Int) : Fits (.number (.integer value))
  | float {value : Binary64} : value.Fits → Fits (.number (.float value))
  | text (value : String) : Fits (.text value)
  | array {items : List Json} : (∀ item ∈ items, Fits item) → Fits (.array items)
  | object {members : List (String × Json)} :
      (∀ member ∈ members, Fits member.2) → Fits (.object members)

theorem append_itemChars (item : Json) (items : List Json) :
    chars item ++ itemChars items = [','].intercalate ((item :: items).map chars) ++ [']'] := by
  induction items generalizing item with
  | nil => simp [itemChars]
  | cons next items ih =>
    rw [itemChars, List.cons_append, ih]
    simp [List.intercalate_cons_cons]

theorem append_memberChars (entry : String × Json) (members : List (String × Json)) :
    entryChars entry ++ memberChars members =
      [','].intercalate ((entry :: members).map entryChars) ++ ['\x7d'] := by
  induction members generalizing entry with
  | nil => simp [memberChars]
  | cons next members ih =>
    rw [memberChars, List.cons_append, ih]
    simp [List.intercalate_cons_cons]

theorem chars_array (items : List Json) :
    chars (.array items) = '[' :: [','].intercalate (items.map chars) ++ [']'] := by
  cases items with
  | nil => rfl
  | cons item items => rw [chars, List.cons_append, List.cons_append, append_itemChars]

theorem chars_object (members : List (String × Json)) :
    chars (.object members) =
      '\x7b' :: [','].intercalate (members.map entryChars) ++ ['\x7d'] := by
  cases members with
  | nil => rfl
  | cons entry members => rw [chars, List.cons_append, List.cons_append, append_memberChars]

/-- The text of a value is a JSON text. -/
theorem compact_chars {value : Json} (fits : value.Fits) : Compact value.chars := by
  induction fits with
  | null => exact .null
  | bool value =>
    cases value with
    | true => exact .true
    | false => exact .false
  | integer value => exact .number (numberForm_decimalInt value)
  | float fits => exact .number (Binary64.numberForm_written fits)
  | text value => exact .text (quotedForm_quotedChars value.toList)
  | array _ ih =>
    rw [chars_array]
    exact .array _ (List.forall_mem_map.mpr ih)
  | @object members _ ih =>
    have entries : members.map entryChars =
        (members.map fun member => (quotedChars member.1.toList, chars member.2)).map
          fun member => member.1 ++ ':' :: member.2 := by
      rw [List.map_map]
      exact List.map_congr_left fun ⟨_, _⟩ _ => rfl
    rw [chars_object, entries]
    refine .object _ (List.forall_mem_map.mpr fun member _ => ?_) (List.forall_mem_map.mpr ih)
    exact quotedForm_quotedChars _

end Json

end WorkflowKit
