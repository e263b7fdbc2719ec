import WorkflowKit.Proofs.Text.Blank
import WorkflowKit.Proofs.Text.Decoding
import WorkflowKit.Text.Pieces

namespace WorkflowKit

namespace Octets

/-- A sequence does not go on at an octet below 0x80. -/
theorem continued_append {range : UInt8 × UInt8} (least : 0x80 ≤ range.1) {b : UInt8}
    (ascii : b < 0x80) (missing value read : Nat) (octets rest : Octets) :
    continued missing range value read (octets ++ b :: rest) =
      continued missing range value read octets := by
  induction octets generalizing missing range value read with
  | nil =>
    cases missing with
    | zero => rfl
    | succ missing =>
      have below : ¬ range.1 ≤ b := UInt8.not_le.mpr (UInt8.lt_of_lt_of_le ascii least)
      simp [continued, below]
  | cons d octets ih =>
    cases missing with
    | zero => rfl
    | succ missing =>
      rw [List.cons_append, continued, continued]
      split
      · exact ih (UInt8.le_refl _) _ _ _
      · rfl

theorem continued_length (missing : Nat) (range : UInt8 × UInt8) (value read : Nat)
    (octets : Octets) : (continued missing range value read octets).2 ≤ read + octets.length := by
  induction octets generalizing missing range value read with
  | nil => cases missing <;> exact Nat.le_refl _
  | cons d octets ih =>
    cases missing with
    | zero => exact Nat.le_add_right _ _
    | succ missing =>
      rw [continued]
      split
      · have later := ih missing (0x80, 0xBF) (value * 64 + (d.toNat - 0x80)) (read + 1)
        rw [List.length_cons]
        omega
      · exact Nat.le_add_right _ _

theorem least_second (lead : UInt8) : 0x80 ≤ (secondRange lead).1 := by
  unfold secondRange
  split_ifs <;> decide

/-- A character does not reach beyond an octet of ASCII, so what follows this octet does not
matter. -/
theorem firstPiece_append {b : UInt8} (ascii : b < 0x80) (lead : UInt8) (octets rest : Octets) :
    firstPiece lead (octets ++ b :: rest) = firstPiece lead octets := by
  unfold firstPiece
  split
  · rfl
  · exact continued_append (least_second lead) ascii _ _ _ _ _

theorem firstPiece_length (lead : UInt8) (octets : Octets) :
    (firstPiece lead octets).2 ≤ octets.length := by
  unfold firstPiece
  split
  · exact Nat.zero_le _
  · rename_i missing _
    have bound := continued_length missing (secondRange lead) (leadBits lead missing) 0 octets
    rwa [Nat.zero_add] at bound

/-- No piece goes across an octet below 0x80, which is a character of its own. -/
theorem pieces_append {b : UInt8} (ascii : b < 0x80) (octets rest : Octets) :
    pieces (octets ++ b :: rest) = pieces octets ++ some (Char.ofNat b.toNat) :: pieces rest := by
  fun_induction pieces octets with
  | case1 => rw [List.nil_append, pieces, firstPiece_one ascii]; rfl
  | case2 lead octets piece ih =>
    have bound := firstPiece_length lead octets
    rw [List.cons_append, pieces, firstPiece_append ascii, List.drop_append_of_le_length bound, ih]
    rfl

/-- Reading octets before and after an octet of ASCII may be done apart. -/
theorem lossyText_append {b : UInt8} (ascii : b < 0x80) (octets rest : Octets) :
    lossyText (octets ++ b :: rest) =
      String.ofList ((lossyText octets).toList ++ Char.ofNat b.toNat :: (lossyText rest).toList) := by
  simp [lossyText, pieces_append ascii]

@[simp]
theorem lossyText_nil : lossyText [] = "" := by
  rw [lossyText, pieces, List.map_nil, String.ofList_nil]

theorem lossyText_ne_empty {octets : Octets} (nonempty : octets ≠ []) :
    (lossyText octets).toList ≠ [] := by
  obtain ⟨lead, rest, rfl⟩ := List.exists_cons_of_ne_nil nonempty
  rw [lossyText, pieces, String.toList_ofList, List.map_cons]
  exact List.cons_ne_nil _ _

/-- The number of a character has at least the bits of the octets read so far, and those of the least
octet that may follow. -/
theorem number_of_continued {range : UInt8 × UInt8} {missing value read : Nat}
    {octets : Octets} {c : Char}
    (found : (continued missing range value read octets).1 = some c) :
    ∃ number, c = Char.ofNat number ∧ value ≤ number ∧
      (missing ≠ 0 → value * 64 + (range.1.toNat - 0x80) ≤ number) := by
  induction octets generalizing missing range value read with
  | nil =>
    cases missing with
    | zero => exact ⟨value, (Option.some.inj found).symm, Nat.le_refl _, fun more => absurd rfl more⟩
    | succ missing => cases found
  | cons d octets ih =>
    cases missing with
    | zero => exact ⟨value, (Option.some.inj found).symm, Nat.le_refl _, fun more => absurd rfl more⟩
    | succ missing =>
      rw [continued] at found
      split at found
      · rename_i inside
        obtain ⟨number, same, least, _⟩ := ih found
        rw [Bool.and_eq_true, decide_eq_true_iff, UInt8.le_iff_toNat_le] at inside
        have low := inside.1
        exact ⟨number, same, by omega, fun _ => by omega⟩
      · cases found

theorem eq_of_ofNat_lineFeed {n : Nat} (lineFeed : Char.ofNat n = '\n') : n = 0x0A := by
  by_cases valid : n < 0xD800 ∨ 0xDFFF < n ∧ n < 0x110000
  · rw [← toNat_ofNat_of_valid valid, lineFeed]
    rfl
  · have notValid : ¬ n.isValidChar := valid
    rw [Char.ofNat, dif_neg notValid] at lineFeed
    cases lineFeed

/-- Only an octet of its own is read as a line feed. -/
theorem lead_of_lineFeed {lead : UInt8} {octets : Octets}
    (found : (firstPiece lead octets).1 = some '\n') : lead = 0x0A := by
  -- A longer sequence stands for a number from 0x10 on, whatever its other octets are.
  have long {missing : Nat} (more : missing ≠ 0)
      (large : 0x10 ≤ leadBits lead missing * 64 + ((secondRange lead).1.toNat - 0x80)) :
      (continued missing (secondRange lead) (leadBits lead missing) 0 octets).1 ≠ some '\n' := by
    intro read
    obtain ⟨number, same, _, least⟩ := number_of_continued read
    have small := eq_of_ofNat_lineFeed same.symm
    have large' := least more
    omega
  rw [firstPiece, following_eq] at found
  split_ifs at found with one two three four
  · have number := eq_of_ofNat_lineFeed (Option.some.inj found)
    exact UInt8.toNat_inj.mp number
  · have bits : leadBits lead 1 = lead.toNat - 0xC0 := rfl
    refine absurd found (long Nat.one_ne_zero ?_)
    omega
  · have bits : leadBits lead 2 = lead.toNat - 0xE0 := rfl
    refine absurd found (long (Nat.succ_ne_zero 1) ?_)
    by_cases least : lead = 0xE0
    · subst least
      decide
    · have other : lead.toNat ≠ 0xE0 := fun same => least (UInt8.toNat_inj.mp same)
      omega
  · have bits : leadBits lead 3 = lead.toNat - 0xF0 := rfl
    refine absurd found (long (Nat.succ_ne_zero 2) ?_)
    by_cases least : lead = 0xF0
    · subst least
      decide
    · have other : lead.toNat ≠ 0xF0 := fun same => least (UInt8.toNat_inj.mp same)
      omega

/-- No line feed comes out of octets that are not valid. -/
theorem lineFeed_mem_of_mem_lossyText {octets : Octets} (member : '\n' ∈ (lossyText octets).toList) :
    0x0A ∈ octets := by
  rw [lossyText, String.toList_ofList] at member
  fun_induction pieces octets with
  | case1 => cases member
  | case2 lead octets piece ih =>
    rcases List.mem_cons.mp member with first | later
    · cases read : (firstPiece lead octets).1 with
      | none =>
        have replaced : '\n' = '\uFFFD' := first.trans (congrArg (·.getD '\uFFFD') read)
        exact absurd replaced (by decide)
      | some c =>
        obtain rfl : '\n' = c := first.trans (congrArg (·.getD '\uFFFD') read)
        rw [lead_of_lineFeed read]
        exact List.mem_cons_self
    · exact List.mem_cons_of_mem _ (List.mem_of_mem_drop (ih later))

end Octets

namespace Text

theorem trim_withoutReturn (cs : List Char) :
    trim (String.ofList (withoutReturn cs)) = trim (String.ofList cs) := by
  unfold withoutReturn
  split_ifs with returns
  · obtain ⟨before, rfl⟩ := List.getLast?_eq_some_iff.mp returns
    rw [List.dropLast_concat]
    exact (trim_append_blank (by decide)).symm
  · rfl

theorem lines_append_lineFeed {line : List Char} (free : '\n' ∉ line) (rest : List Char) :
    lines (String.ofList (line ++ '\n' :: rest)) =
      String.ofList (withoutReturn line) :: lines (String.ofList rest) := by
  have more := List.splitOn_ne_nil '\n' rest
  simp only [lines, String.toList_ofList, List.splitOn_append_cons_self_of_not_mem free]
  rw [List.dropLast_cons_of_ne_nil more, List.getLast?_cons_of_ne_nil more]
  split <;> rfl

theorem lines_of_free {line : List Char} (free : '\n' ∉ line) (nonempty : line ≠ []) :
    lines (String.ofList line) = [String.ofList line] := by
  simp [lines, List.splitOn_eq_singleton free, nonempty]

theorem lines_empty : lines "" = [] := rfl

end Text

namespace Octets

/-- Octets taken apart into lines. A line ends with LF or CRLF, which do not belong to it, and the last
one need not end. -/
inductive InLines : Octets → List Octets → Prop
  | done : InLines [] []
  | last {line : Octets} (free : 0x0A ∉ line) (nonempty : line ≠ []) : InLines line [line]
  | lineFeed {line rest : Octets} {lines : List Octets} (free : 0x0A ∉ line)
      (later : InLines rest lines) : InLines (line ++ 0x0A :: rest) (line :: lines)
  | returnLineFeed {line rest : Octets} {lines : List Octets} (free : 0x0A ∉ line)
      (later : InLines rest lines) : InLines (line ++ 0x0D :: 0x0A :: rest) (line :: lines)

/-- All octets are lines, the last of them perhaps without an end. -/
theorem exists_inLines (octets : Octets) : ∃ lines, InLines octets lines := by
  by_cases member : 0x0A ∈ octets
  · obtain ⟨line, rest, parts, free⟩ := List.eq_append_cons_of_mem member
    have shorter : rest.length < octets.length := by
      rw [parts, List.length_append, List.length_cons]
      omega
    obtain ⟨lines, later⟩ := exists_inLines rest
    exact ⟨line :: lines, parts ▸ .lineFeed free later⟩
  · by_cases empty : octets = []
    · exact ⟨[], empty ▸ .done⟩
    · exact ⟨[octets], .last member empty⟩
termination_by octets.length

/-- The text of a line, without the blanks at its ends. -/
def lineText (line : Octets) : String :=
  Text.trim line.lossyText

@[simp]
theorem lineText_ofText (s : String) : lineText (ofText s) = Text.trim s := by
  rw [lineText, lossyText_ofText]

theorem trim_lines_append {line : Octets} (free : 0x0A ∉ line) (rest : Octets) :
    (Text.lines (lossyText (line ++ 0x0A :: rest))).map Text.trim =
      lineText line :: (Text.lines (lossyText rest)).map Text.trim := by
  have free' : '\n' ∉ (lossyText line).toList := fun member =>
    free (lineFeed_mem_of_mem_lossyText member)
  have lineFeed : Char.ofNat (0x0A : UInt8).toNat = '\n' := rfl
  rw [lossyText_append (by decide), lineFeed, Text.lines_append_lineFeed free', List.map_cons,
    Text.trim_withoutReturn, String.ofList_toList, String.ofList_toList, lineText]

/-- A return at the end of a line is a blank like others. -/
theorem lineText_append_return (line : Octets) : lineText (line ++ [0x0D]) = lineText line := by
  rw [lineText, lossyText_append (by decide), lossyText_nil, String.toList_empty,
    Text.trim_append_blank (by decide), String.ofList_toList, lineText]

/-- It does not matter to trimmed lines whether octets are read as a text first or taken apart first, nor
how the lines end. -/
theorem InLines.trim_lines {octets : Octets} {lines : List Octets} (parts : InLines octets lines) :
    (Text.lines (lossyText octets)).map Text.trim = lines.map lineText := by
  induction parts with
  | done => rw [lossyText_nil, Text.lines_empty, List.map_nil, List.map_nil]
  | @last line free nonempty =>
    have free' : '\n' ∉ (lossyText line).toList := fun member =>
      free (lineFeed_mem_of_mem_lossyText member)
    have one := Text.lines_of_free free' (lossyText_ne_empty nonempty)
    rw [String.ofList_toList] at one
    rw [one, List.map_singleton, List.map_singleton, lineText]
  | lineFeed free later ih => rw [trim_lines_append free, ih, List.map_cons]
  | @returnLineFeed line rest lines free later ih =>
    have free' : 0x0A ∉ line ++ [0x0D] := by simpa using free
    rw [List.append_cons, trim_lines_append free', ih, lineText_append_return, List.map_cons]

end Octets

end WorkflowKit
