import WorkflowKit.Text.Octets
import Mathlib.Data.List.Sort
import Mathlib.Data.String.Basic
import Mathlib.Tactic.SplitIfs

namespace WorkflowKit.Octets

/-- Two characters are told apart by octets that stand at the same place, so what follows them does
not count. -/
theorem encoded_append_lt {c d : Char} (less : c < d) (s t : Octets) :
    String.utf8EncodeChar c ++ s < String.utf8EncodeChar d ++ t := by
  have values : c.val.toNat < d.val.toNat := less
  have bound : d.val.toNat < 0x110000 := by
    have valid := d.valid
    simp only [UInt32.isValidChar, Nat.isValidChar] at valid
    omega
  simp only [String.utf8EncodeChar]
  generalize c.val.toNat = m at *
  generalize d.val.toNat = n at *
  -- The longer form belongs to the larger number, and its first octet is larger.
  split_ifs <;>
    simp (disch := omega) only [List.cons_append, List.nil_append, List.cons_lt_cons_iff,
      UInt8.lt_iff_toNat_lt, ← UInt8.toNat_inj, UInt8.toNat_ofNat', Nat.mod_eq_of_lt] <;>
    omega

theorem ofChars_lt {cs ds : List Char} (less : cs < ds) : ofChars cs < ofChars ds := by
  induction ds generalizing cs with
  | nil => exact absurd less (List.not_lt_nil cs)
  | cons d ds ih =>
    cases cs with
    | nil =>
      rw [ofChars, ofChars, List.flatMap_nil, List.flatMap_cons]
      cases encoded : String.utf8EncodeChar d with
      | nil => exact absurd encoded String.utf8EncodeChar_ne_nil
      | cons b rest => exact List.nil_lt_cons b _
    | cons c cs =>
      rw [ofChars, ofChars, List.flatMap_cons, List.flatMap_cons]
      rcases List.cons_lt_cons_iff.mp less with first | ⟨rfl, others⟩
      · exact encoded_append_lt first _ _
      · exact List.append_left_lt (ih others)

/-- The order of texts is that of their octets in UTF-8. -/
theorem ofText_lt_iff (a b : String) : ofText a < ofText b ↔ a < b := by
  constructor
  · intro less
    rcases lt_trichotomy a b with before | same | after
    · exact before
    · exact absurd less (same ▸ List.lt_irrefl _)
    · exact absurd less (List.lt_asymm (ofChars_lt after))
  · exact ofChars_lt

/-- Texts in the order of their octets can be told from what is among them. -/
theorem eq_of_mem_iff {a b : List String} (first : a.Pairwise fun x y => ofText x < ofText y)
    (second : b.Pairwise fun x y => ofText x < ofText y) (same : ∀ x, x ∈ a ↔ x ∈ b) : a = b := by
  simp only [ofText_lt_iff] at first second
  exact first.eq_of_mem_iff second same

end WorkflowKit.Octets
