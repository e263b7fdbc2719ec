import WorkflowKit.Text.Octets
import Mathlib.Data.UInt
import Mathlib.Tactic.SplitIfs

namespace WorkflowKit.Octets

/-- All octets of a character beyond ASCII have their highest bit set. -/
theorem lineFeed_mem_encoded_iff (c : Char) : 0x0A ∈ String.utf8EncodeChar c ↔ c = '\n' := by
  have number : c = '\n' ↔ c.val.toNat = 10 := by
    rw [Char.ext_iff, ← UInt32.toNat_inj]
    rfl
  rw [number]
  simp only [String.utf8EncodeChar]
  generalize c.val.toNat = n
  split_ifs <;>
    simp only [List.mem_cons, List.not_mem_nil, or_false, ← UInt8.toNat_inj, UInt8.toNat_ofNat'] <;>
    have ten : (0x0A : UInt8).toNat = 10 := rfl <;>
    omega

/-- No octet of another character is a line feed. -/
theorem lineFeed_mem_ofChars_iff (cs : List Char) : 0x0A ∈ ofChars cs ↔ '\n' ∈ cs := by
  simp only [ofChars, List.mem_flatMap, lineFeed_mem_encoded_iff, exists_eq_right]

end WorkflowKit.Octets
