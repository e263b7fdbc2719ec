import WorkflowKit.Text.Octets
import Mathlib.Data.UInt
import Mathlib.Tactic.SplitIfs

namespace WorkflowKit.Octets

@[simp]
theorem ofChars_nil : ofChars [] = [] := rfl

theorem ofChars_cons (c : Char) (cs : List Char) :
    ofChars (c :: cs) = String.utf8EncodeChar c ++ ofChars cs :=
  List.flatMap_cons

@[simp]
theorem ofChars_append (cs ds : List Char) : ofChars (cs ++ ds) = ofChars cs ++ ofChars ds :=
  List.flatMap_append

theorem length_le_length_ofChars (cs : List Char) : cs.length ≤ (ofChars cs).length := by
  induction cs with
  | nil => exact Nat.le_refl 0
  | cons c cs ih =>
    have size : 0 < (String.utf8EncodeChar c).length := by
      rw [String.length_utf8EncodeChar]
      exact Char.utf8Size_pos c
    rw [ofChars_cons, List.length_append, List.length_cons]
    omega

theorem length_ofText (s : String) : (ofText s).length = s.utf8ByteSize := by
  have bytes : s.toByteArray = s.toList.utf8Encode := by
    rw [← String.toByteArray_ofList, String.ofList_toList]
  rw [← String.size_toByteArray, bytes, List.utf8Encode]
  simp [ofText, ofChars]

theorem encoded_of_ascii {c : Char} (ascii : c.toNat < 0x80) :
    String.utf8EncodeChar c = [c.toUInt8] := by
  have small : c.val.toNat ≤ 127 := Nat.lt_succ_iff.mp ascii
  simp only [String.utf8EncodeChar, if_pos small]
  rfl

/-- All octets of a character beyond ASCII have their highest bit set. -/
theorem high_of_mem_encoded {c : Char} (beyond : 0x80 ≤ c.toNat) {b : UInt8}
    (member : b ∈ String.utf8EncodeChar c) : 0x80 ≤ b.toNat := by
  have large : ¬ c.val.toNat ≤ 127 := Nat.not_le.mpr beyond
  simp only [String.utf8EncodeChar, if_neg large] at member
  split_ifs at member <;> simp only [List.mem_cons, List.not_mem_nil, or_false] at member
  · rcases member with rfl | rfl <;> simp only [UInt8.toNat_ofNat'] <;> omega
  · rcases member with rfl | rfl | rfl <;> simp only [UInt8.toNat_ofNat'] <;> omega
  · rcases member with rfl | rfl | rfl | rfl <;> simp only [UInt8.toNat_ofNat'] <;> omega

/-- The first octet of a character tells how many follow. Octets that begin no character are those
that follow, and a few others. -/
theorem following_eq (lead : UInt8) :
    following lead =
      if lead.toNat < 0x80 then some 0
      else if 0xC2 ≤ lead.toNat ∧ lead.toNat ≤ 0xDF then some 1
      else if 0xE0 ≤ lead.toNat ∧ lead.toNat ≤ 0xEF then some 2
      else if 0xF0 ≤ lead.toNat ∧ lead.toNat ≤ 0xF4 then some 3
      else none := by
  simp only [following, UInt8.lt_iff_toNat_lt, UInt8.le_iff_toNat_le, Bool.and_eq_true,
    decide_eq_true_eq]
  rfl

/-- The second octet has six bits as the others have, but some values would give a character that has
a shorter sequence, or none. -/
theorem second_inside (lead : UInt8) {b : UInt8} (least : 0x80 ≤ b.toNat) (most : b.toNat ≤ 0xBF)
    (long : lead.toNat = 0xE0 → 0xA0 ≤ b.toNat) (surrogate : lead.toNat = 0xED → b.toNat ≤ 0x9F)
    (longest : lead.toNat = 0xF0 → 0x90 ≤ b.toNat) (last : lead.toNat = 0xF4 → b.toNat ≤ 0x8F) :
    (secondRange lead).1.toNat ≤ b.toNat ∧ b.toNat ≤ (secondRange lead).2.toNat := by
  unfold secondRange
  simp only [← UInt8.toNat_inj, UInt8.reduceToNat]
  split_ifs <;> simp only [UInt8.reduceToNat] <;> omega

/-- An octet that is within its range adds six bits to the character that is read. -/
theorem continued_succ {b low high : UInt8} (least : low.toNat ≤ b.toNat)
    (most : b.toNat ≤ high.toNat) (missing value read : Nat) (rest : Octets) :
    continued (missing + 1) (low, high) value read (b :: rest) =
      continued missing (0x80, 0xBF) (value * 64 + (b.toNat - 0x80)) (read + 1) rest := by
  have inside : (decide (low ≤ b) && decide (b ≤ high)) = true := by
    simp only [UInt8.le_iff_toNat_le, least, most, decide_true, Bool.and_self]
  rw [continued, if_pos inside]

theorem continued_succ_of_following {b : UInt8} (inside : 0x80 ≤ b.toNat ∧ b.toNat ≤ 0xBF)
    (missing value read : Nat) (rest : Octets) :
    continued (missing + 1) (0x80, 0xBF) value read (b :: rest) =
      continued missing (0x80, 0xBF) (value * 64 + (b.toNat - 0x80)) (read + 1) rest :=
  continued_succ (show (0x80 : UInt8).toNat ≤ b.toNat from inside.1)
    (show b.toNat ≤ (0xBF : UInt8).toNat from inside.2) missing value read rest

theorem firstPiece_one {lead : UInt8} (ascii : lead.toNat < 0x80) (rest : Octets) :
    firstPiece lead rest = (some (Char.ofNat lead.toNat), 0) := by
  rw [firstPiece, following_eq, if_pos ascii]
  rfl

theorem firstPiece_two {lead b : UInt8} (first : 0xC2 ≤ lead.toNat ∧ lead.toNat ≤ 0xDF)
    (second : 0x80 ≤ b.toNat ∧ b.toNat ≤ 0xBF) (rest : Octets) :
    firstPiece lead (b :: rest) =
      (some (Char.ofNat ((lead.toNat - 0xC0) * 64 + (b.toNat - 0x80))), 1) := by
  obtain ⟨least, most⟩ := second_inside lead second.1 second.2 (by omega) (by omega)
    (by omega) (by omega)
  rw [firstPiece, following_eq, if_neg (by omega), if_pos first]
  dsimp only
  rw [continued_succ least most]
  rfl

/-- Three octets are a character, apart from those that would be too long for it or a surrogate. -/
theorem firstPiece_three {lead b c : UInt8} (first : 0xE0 ≤ lead.toNat ∧ lead.toNat ≤ 0xEF)
    (second : 0x80 ≤ b.toNat ∧ b.toNat ≤ 0xBF) (long : lead.toNat = 0xE0 → 0xA0 ≤ b.toNat)
    (surrogate : lead.toNat = 0xED → b.toNat ≤ 0x9F) (third : 0x80 ≤ c.toNat ∧ c.toNat ≤ 0xBF)
    (rest : Octets) :
    firstPiece lead (b :: c :: rest) =
      (some (Char.ofNat
        (((lead.toNat - 0xE0) * 64 + (b.toNat - 0x80)) * 64 + (c.toNat - 0x80))), 2) := by
  obtain ⟨least, most⟩ := second_inside lead second.1 second.2 long surrogate (by omega) (by omega)
  rw [firstPiece, following_eq, if_neg (by omega), if_neg (by omega), if_pos first]
  dsimp only
  rw [continued_succ least most, continued_succ_of_following third]
  rfl

theorem firstPiece_four {lead b c d : UInt8} (first : 0xF0 ≤ lead.toNat ∧ lead.toNat ≤ 0xF4)
    (second : 0x80 ≤ b.toNat ∧ b.toNat ≤ 0xBF) (longest : lead.toNat = 0xF0 → 0x90 ≤ b.toNat)
    (last : lead.toNat = 0xF4 → b.toNat ≤ 0x8F) (third : 0x80 ≤ c.toNat ∧ c.toNat ≤ 0xBF)
    (fourth : 0x80 ≤ d.toNat ∧ d.toNat ≤ 0xBF) (rest : Octets) :
    firstPiece lead (b :: c :: d :: rest) =
      (some (Char.ofNat
        ((((lead.toNat - 0xF0) * 64 + (b.toNat - 0x80)) * 64 + (c.toNat - 0x80)) * 64 +
          (d.toNat - 0x80))), 3) := by
  obtain ⟨least, most⟩ := second_inside lead second.1 second.2 (by omega) (by omega) longest last
  rw [firstPiece, following_eq, if_neg (by omega), if_neg (by omega), if_neg (by omega),
    if_pos first]
  dsimp only
  rw [continued_succ least most, continued_succ_of_following third, continued_succ_of_following fourth]
  rfl

theorem toNat_ofNat_of_valid {n : Nat} (valid : n < 0xD800 ∨ 0xDFFF < n ∧ n < 0x110000) :
    (Char.ofNat n).toNat = n := by
  have isValid : n.isValidChar := valid
  rw [Char.ofNat, dif_pos isValid]
  exact UInt32.toNat_ofNatLT

/-- A character is read from its octets, whatever follows them. -/
theorem pieces_encoded (c : Char) (rest : Octets) :
    pieces (String.utf8EncodeChar c ++ rest) = some c :: pieces rest := by
  have valid : c.val.toNat < 0xD800 ∨ 0xDFFF < c.val.toNat ∧ c.val.toNat < 0x110000 := c.valid
  have number : Char.ofNat c.val.toNat = c := Char.ofNat_toNat c
  simp only [String.utf8EncodeChar]
  generalize c.val.toNat = n at valid number
  have octet {k : Nat} (small : k < 0x100) : (UInt8.ofNat k).toNat = k := by
    rw [UInt8.toNat_ofNat', Nat.mod_eq_of_lt small]
  -- One case for each length. The bits that are shifted out of the number are put together again.
  split_ifs with one two three
  · have lead := octet (k := n) (by omega)
    rw [List.cons_append, pieces, firstPiece_one (by omega), lead, number]
    rfl
  · have lead := octet (k := n / 64 % 32 + 192) (by omega)
    have second := octet (k := n % 64 + 128) (by omega)
    have value : (n / 64 % 32 + 192 - 192) * 64 + (n % 64 + 128 - 128) = n := by omega
    rw [List.cons_append, List.cons_append, pieces, firstPiece_two (by omega) (by omega), lead, second,
      value, number]
    rfl
  · have lead := octet (k := n / 4096 % 16 + 224) (by omega)
    have second := octet (k := n / 64 % 64 + 128) (by omega)
    have third := octet (k := n % 64 + 128) (by omega)
    have value : ((n / 4096 % 16 + 224 - 224) * 64 + (n / 64 % 64 + 128 - 128)) * 64 +
        (n % 64 + 128 - 128) = n := by omega
    rw [List.cons_append, List.cons_append, List.cons_append, pieces,
      firstPiece_three (by omega) (by omega) (by omega) (by omega) (by omega), lead, second, third,
      value, number]
    rfl
  · have lead := octet (k := n / 262144 % 8 + 240) (by omega)
    have second := octet (k := n / 4096 % 64 + 128) (by omega)
    have third := octet (k := n / 64 % 64 + 128) (by omega)
    have fourth := octet (k := n % 64 + 128) (by omega)
    have value : (((n / 262144 % 8 + 240 - 240) * 64 + (n / 4096 % 64 + 128 - 128)) * 64 +
        (n / 64 % 64 + 128 - 128)) * 64 + (n % 64 + 128 - 128) = n := by omega
    rw [List.cons_append, List.cons_append, List.cons_append, List.cons_append, pieces,
      firstPiece_four (by omega) (by omega) (by omega) (by omega) (by omega) (by omega), lead, second,
      third, fourth, value, number]
    rfl

/-- The octets of characters are taken apart into these characters. -/
theorem pieces_ofChars (cs : List Char) : pieces (ofChars cs) = cs.map some := by
  induction cs with
  | nil => rw [ofChars_nil, pieces, List.map_nil]
  | cons c cs ih => rw [ofChars_cons, pieces_encoded, ih, List.map_cons]

/-- The octets of a text are valid, and are decoded to it. -/
theorem text?_ofChars (cs : List Char) : text? (ofChars cs) = some (String.ofList cs) := by
  rw [text?, pieces_ofChars, List.mapM_map]
  have all : cs.mapM (id ∘ some) = some cs := by
    simpa [Function.comp_def] using List.mapM_pure (m := Option) (l := cs) (f := id)
  rw [all, Option.map_some]

@[simp]
theorem lossyText_ofText (s : String) : lossyText (ofText s) = s := by
  simp [lossyText, ofText, pieces_ofChars, Function.comp_def]

end WorkflowKit.Octets
