import WorkflowKit.Http.Uri
import WorkflowKit.Proofs.Text.Decoding
import WorkflowKit.Text.Percent
import Mathlib.Data.Bool.AllAny
import Mathlib.Tactic.SplitIfs

namespace WorkflowKit.Text

/-- The value of a digit of base sixteen, in letters of either case. -/
def digit? (c : Char) : Option Nat :=
  "0123456789abcdef".toList.findIdx? (· = c.toLower)

/-- The octet that two digits at the start of a text write. -/
def digitPair? : List Char → Option UInt8
  | a :: b :: _ => do
    let i ← digit? a
    let j ← digit? b
    some (UInt8.ofNat (16 * i + j))
  | _ => none

/-- The octets that a name or a value in a form stands for. A percent sign without two digits stands
for itself. -/
def formOctets : List Char → Octets
  | [] => []
  | c :: rest =>
    if c = '+' then 0x20 :: formOctets rest
    else if c = '%' then
      match digitPair? rest with
      | some b => b :: formOctets (rest.drop 2)
      | none => 0x25 :: formOctets rest
    else String.utf8EncodeChar c ++ formOctets rest
termination_by cs => cs.length
decreasing_by all_goals simp only [List.length_cons, List.length_drop]; omega

def formText (cs : List Char) : String :=
  Octets.lossyText (formOctets cs)

/-- The names and values that a query tells, each pair up to the next ampersand. -/
def formParameters (query : String) : List (String × String) :=
  ((query.toList.splitOn '&').filter (!·.isEmpty)).map fun part =>
    (formText (part.takeWhile (· != '=')), formText ((part.dropWhile (· != '=')).drop 1))

/-- The characters that an octet is written by in a form. -/
def formChars (b : UInt8) : List Char :=
  if isFormOctet b then [Char.ofNat b.toNat] else if b = 0x20 then ['+'] else percentOctet b

theorem toList_formValue (s : String) : (formValue s).toList = (Octets.ofText s).flatMap formChars :=
  String.toList_ofList

/-- A value in a form has only characters that stand for themselves in an address. -/
theorem formChars_plain (b : UInt8) :
    ∀ c ∈ formChars b, Http.Uri.isQueryChar c ∧ c ≠ '&' ∧ c ≠ '=' ∧ c ≠ '#' := by
  have each : ∀ n < 0x100, (formChars (UInt8.ofNat n)).all fun c =>
      Http.Uri.isQueryChar c ∧ c ≠ '&' ∧ c ≠ '=' ∧ c ≠ '#' := by decide +kernel
  have found := each b.toNat b.toNat_lt
  rw [UInt8.ofNat_toNat] at found
  exact List.all_iff_forall_prop.mp found

theorem kept_of_isFormOctet {b : UInt8} (kept : isFormOctet b) :
    Char.ofNat b.toNat ≠ '+' ∧ Char.ofNat b.toNat ≠ '%' ∧
      String.utf8EncodeChar (Char.ofNat b.toNat) = [b] := by
  have each : ∀ n < 0x100, isFormOctet (UInt8.ofNat n) → Char.ofNat n ≠ '+' ∧ Char.ofNat n ≠ '%' ∧
      String.utf8EncodeChar (Char.ofNat n) = [UInt8.ofNat n] := by decide +kernel
  have found := each b.toNat b.toNat_lt
  rw [UInt8.ofNat_toNat] at found
  exact found kept

theorem digit?_upperDigit {n : Nat} (small : n < 16) : digit? (upperDigit n) = some n := by
  have each : ∀ n < 16, digit? (upperDigit n) = some n := by decide
  exact each n small

/-- The digits that an octet is written by write this octet. -/
theorem digitPair?_upperDigit (b : UInt8) (rest : List Char) :
    digitPair? (upperDigit (b.toNat / 16) :: upperDigit (b.toNat % 16) :: rest) = some b := by
  have bound : b.toNat < 0x100 := b.toNat_lt
  have high := digit?_upperDigit (show b.toNat / 16 < 16 by omega)
  have low := digit?_upperDigit (show b.toNat % 16 < 16 by omega)
  rw [digitPair?, high, low]
  exact congrArg some (by rw [Nat.div_add_mod, UInt8.ofNat_toNat])

theorem formOctets_percentOctet (b : UInt8) (rest : List Char) :
    formOctets (percentOctet b ++ rest) = b :: formOctets rest := by
  have notPlus : ¬ '%' = '+' := by decide
  rw [percentOctet, List.cons_append, formOctets, if_neg notPlus, if_pos rfl, List.cons_append,
    List.cons_append, List.nil_append, digitPair?_upperDigit]
  rfl

/-- An octet is told again from the characters that it is written by. -/
theorem formOctets_formChars (b : UInt8) (rest : List Char) :
    formOctets (formChars b ++ rest) = b :: formOctets rest := by
  unfold formChars
  split_ifs with kept blank
  · obtain ⟨notPlus, notPercent, encoded⟩ := kept_of_isFormOctet kept
    rw [List.singleton_append, formOctets, if_neg notPlus, if_neg notPercent, encoded,
      List.singleton_append]
  · rw [List.singleton_append, formOctets, if_pos rfl, blank]
  · exact formOctets_percentOctet b rest

theorem formOctets_flatMap (octets : Octets) : formOctets (octets.flatMap formChars) = octets := by
  induction octets with
  | nil => rw [List.flatMap_nil, formOctets]
  | cons b octets ih => rw [List.flatMap_cons, formOctets_formChars, ih]

/-- A text that is written in a form is told again. -/
@[simp]
theorem formText_formValue (s : String) : formText (formValue s).toList = s := by
  rw [formText, toList_formValue, formOctets_flatMap, Octets.lossyText_ofText]

/-- A text as one part of a path does not end the path. -/
theorem plain_of_mem_pathPart {s : String} {c : Char} (member : c ∈ (pathPart s).toList) :
    Http.Uri.isPathChar c ∧ c ≠ '/' := by
  rw [pathPart, String.toList_ofList] at member
  obtain ⟨b, _, inside⟩ := List.mem_flatMap.mp member
  have each : ∀ n < 0x100, (if isPlainOctet (UInt8.ofNat n) then
      [Char.ofNat (UInt8.ofNat n).toNat] else percentOctet (UInt8.ofNat n)).all fun c =>
        Http.Uri.isPathChar c ∧ c ≠ '/' := by decide +kernel
  have found := each b.toNat b.toNat_lt
  rw [UInt8.ofNat_toNat] at found
  exact List.all_iff_forall_prop.mp found c inside

/-- The value of a form has no characters that would end it. -/
theorem plain_of_mem_formValue {s : String} {c : Char} (member : c ∈ (formValue s).toList) :
    Http.Uri.isQueryChar c ∧ c ≠ '&' ∧ c ≠ '=' ∧ c ≠ '#' := by
  rw [toList_formValue] at member
  obtain ⟨b, _, inside⟩ := List.mem_flatMap.mp member
  exact formChars_plain b c inside

/-- Escapes do not make a text shorter. -/
theorem length_le_formValue (s : String) : (Octets.ofText s).length ≤ (formValue s).toList.length := by
  rw [toList_formValue]
  induction Octets.ofText s with
  | nil => exact Nat.le_refl 0
  | cons b octets ih =>
    have written : 0 < (formChars b).length := by
      unfold formChars
      split_ifs <;> exact Nat.zero_lt_succ _
    rw [List.flatMap_cons, List.length_append, List.length_cons]
    omega

/-- Characters that are neither plus nor percent signs stand for themselves. -/
theorem formOctets_of_plain {cs : List Char} (plain : ∀ c ∈ cs, c ≠ '+' ∧ c ≠ '%') :
    formOctets cs = Octets.ofChars cs := by
  induction cs with
  | nil => rw [formOctets, Octets.ofChars_nil]
  | cons c cs ih =>
    obtain ⟨⟨notPlus, notPercent⟩, others⟩ := List.forall_mem_cons.mp plain
    rw [formOctets, if_neg notPlus, if_neg notPercent, ih others, Octets.ofChars_cons]

/-- A form with one parameter tells its name and its value. -/
theorem formParameters_single {name : String}
    (plain : ∀ c ∈ name.toList, c ≠ '&' ∧ c ≠ '=' ∧ c ≠ '+' ∧ c ≠ '%') (s : String) :
    formParameters (name ++ "=" ++ formValue s) = [(name, s)] := by
  have free : ∀ c ∈ name.toList ++ '=' :: (formValue s).toList, c ≠ '&' := by
    refine List.forall_mem_append.mpr ⟨fun c member => (plain c member).1, ?_⟩
    exact List.forall_mem_cons.mpr ⟨by decide, fun c member => (plain_of_mem_formValue member).2.1⟩
  have noEquals : ∀ c ∈ name.toList, (c != '=') = true :=
    fun c member => bne_iff_ne.mpr (plain c member).2.1
  have before : (name.toList ++ '=' :: (formValue s).toList).takeWhile (· != '=') = name.toList := by
    rw [List.takeWhile_append_of_pos noEquals, List.takeWhile_cons_of_neg (by decide),
      List.append_nil]
  have after : (name.toList ++ '=' :: (formValue s).toList).dropWhile (· != '=') =
      '=' :: (formValue s).toList := by
    rw [List.dropWhile_append_of_pos noEquals, List.dropWhile_cons_of_neg (by decide)]
  have told : formText name.toList = name := by
    rw [formText, formOctets_of_plain fun c member => (plain c member).2.2]
    exact Octets.lossyText_ofText name
  have chars : (name ++ "=" ++ formValue s).toList = name.toList ++ '=' :: (formValue s).toList := by
    simp
  have whole := List.splitOn_eq_singleton fun member => free '&' member rfl
  have visible : [name.toList ++ '=' :: (formValue s).toList].filter (!·.isEmpty) =
      [name.toList ++ '=' :: (formValue s).toList] := by simp
  rw [formParameters, chars, whole, visible, List.map_cons, List.map_nil, before, after, told,
    List.drop_succ_cons, List.drop_zero, formText_formValue]

/-- The octets that a place of a path stands for. Other than in a form, a plus sign stands for itself. -/
def placeOctets : List Char → Octets
  | [] => []
  | c :: rest =>
    if c = '%' then
      match digitPair? rest with
      | some b => b :: placeOctets (rest.drop 2)
      | none => 0x25 :: placeOctets rest
    else String.utf8EncodeChar c ++ placeOctets rest
termination_by cs => cs.length
decreasing_by all_goals simp only [List.length_cons, List.length_drop]; omega

/-- The characters that an octet is written by in a path. -/
def pathChars (b : UInt8) : List Char :=
  if isPlainOctet b then [Char.ofNat b.toNat] else percentOctet b

theorem toList_pathPart (s : String) : (pathPart s).toList = (Octets.ofText s).flatMap pathChars :=
  String.toList_ofList

theorem isFormOctet_of_isPlainOctet {b : UInt8} (plain : isPlainOctet b) : isFormOctet b := by
  rw [isFormOctet, plain]
  rfl

theorem placeOctets_pathChars (b : UInt8) (rest : List Char) :
    placeOctets (pathChars b ++ rest) = b :: placeOctets rest := by
  unfold pathChars
  split_ifs with plain
  · obtain ⟨_, notPercent, encoded⟩ := kept_of_isFormOctet (isFormOctet_of_isPlainOctet plain)
    rw [List.singleton_append, placeOctets, if_neg notPercent, encoded, List.singleton_append]
  · rw [percentOctet, List.cons_append, placeOctets, if_pos rfl, List.cons_append,
      List.cons_append, List.nil_append, digitPair?_upperDigit]
    rfl

/-- A text is told again from the place that it is written as. -/
@[simp]
theorem placeOctets_pathPart (s : String) : placeOctets (pathPart s).toList = Octets.ofText s := by
  rw [toList_pathPart]
  induction Octets.ofText s with
  | nil => rw [List.flatMap_nil, placeOctets]
  | cons b octets ih => rw [List.flatMap_cons, placeOctets_pathChars, ih]

end WorkflowKit.Text
