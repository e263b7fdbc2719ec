namespace WorkflowKit

/-- Octets, as texts are stored in UTF-8. -/
abbrev Octets := List UInt8

namespace Octets

/-- The octets of a text in UTF-8. -/
def ofChars (cs : List Char) : Octets :=
  cs.flatMap String.utf8EncodeChar

def ofText (s : String) : Octets :=
  ofChars s.toList

/-- The range in which the second octet of a sequence must lie, given the first. -/
def secondRange (lead : UInt8) : UInt8 × UInt8 :=
  if lead = 0xE0 then (0xA0, 0xBF)
  else if lead = 0xED then (0x80, 0x9F)
  else if lead = 0xF0 then (0x90, 0xBF)
  else if lead = 0xF4 then (0x80, 0x8F)
  else (0x80, 0xBF)

/-- The number of octets that follow the first one of a sequence, `none` if none begins so. -/
def following (lead : UInt8) : Option Nat :=
  if lead < 0x80 then some 0
  else if 0xC2 ≤ lead && lead ≤ 0xDF then some 1
  else if 0xE0 ≤ lead && lead ≤ 0xEF then some 2
  else if 0xF0 ≤ lead && lead ≤ 0xF4 then some 3
  else none

/-- The value of the bits that the first octet contributes. -/
def leadBits (lead : UInt8) : Nat → Nat
  | 0 => lead.toNat
  | 1 => lead.toNat - 0xC0
  | 2 => lead.toNat - 0xE0
  | _ => lead.toNat - 0xF0

/-- Reads the octets after the first one: the character if all `missing` of them are there, and the
number of octets read. -/
def continued : Nat → UInt8 × UInt8 → Nat → Nat → Octets → Option Char × Nat
  | 0, _, value, read, _ => (some (Char.ofNat value), read)
  | _ + 1, _, _, read, [] => (none, read)
  | missing + 1, (low, high), value, read, b :: rest =>
    if low ≤ b && b ≤ high then
      continued missing (0x80, 0xBF) (value * 64 + (b.toNat - 0x80)) (read + 1) rest
    else (none, read)

/-- The first piece of a sequence: its character, `none` if it is ill-formed, and the number of
octets it has after the first. -/
def firstPiece (lead : UInt8) (rest : Octets) : Option Char × Nat :=
  match following lead with
  | none => (none, 0)
  | some missing => continued missing (secondRange lead) (leadBits lead missing) 0 rest

/-- The pieces of a sequence of octets, an ill-formed piece being `none`. -/
def pieces : Octets → List (Option Char)
  | [] => []
  | lead :: rest =>
    let piece := firstPiece lead rest
    piece.1 :: pieces (rest.drop piece.2)
termination_by octets => octets.length
decreasing_by simp only [List.length_cons, List.length_drop]; omega

/-- The text in UTF-8, if the octets are well-formed. -/
def text? (octets : Octets) : Option String :=
  ((pieces octets).mapM id).map String.ofList

/-- The text in UTF-8, with the replacement character for each ill-formed piece. -/
def lossyText (octets : Octets) : String :=
  String.ofList ((pieces octets).map (·.getD '\uFFFD'))

end Octets

end WorkflowKit
