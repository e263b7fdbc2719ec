import WorkflowKit.Proofs.Decimal.Shortest
import Mathlib.Tactic.Linarith

namespace WorkflowKit

/-- The value of a decimal. -/
def Decimal.value (decimal : Decimal) : ℚ :=
  decimal.digits * 10 ^ decimal.power

namespace Binary64

/-- The value of a number without its sign. -/
def magnitude (x : Binary64) : ℚ :=
  x.significand * 2 ^ x.exponent

/-- Holds of the number to which a value is rounded: no other number of 53 bits is nearer, and of two
that are as near it is the even one. -/
structure IsNearest (x : Binary64) (value : ℚ) : Prop where
  nearest : ∀ y : Binary64, y.significand < 2 ^ 53 → leastExponent ≤ y.exponent →
    |value - x.magnitude| ≤ |value - y.magnitude|
  even : ∀ y : Binary64, y.significand < 2 ^ 53 → leastExponent ≤ y.exponent →
    |value - x.magnitude| = |value - y.magnitude| → x.magnitude ≠ y.magnitude →
      x.significand % 2 = 0

variable {x y : Binary64}

theorem magnitude_eq_unit (x : Binary64) : x.magnitude = 4 * x.significand * x.unit := by
  have place : (2 : ℚ) ^ x.exponent = 4 * 2 ^ (x.exponent - 2) := by
    rw [show x.exponent = 2 + (x.exponent - 2) by omega, zpow_add₀ (by norm_num)]
    norm_num
  rw [magnitude, unit, place]
  ring

/-- A number with the same exponent or a larger one is a multiple of the last place. -/
theorem magnitude_eq_multiple (le : x.exponent ≤ y.exponent) :
    ∃ count : Nat, y.magnitude = 4 * count * x.unit := by
  refine ⟨y.significand * 2 ^ (y.exponent - x.exponent).toNat, ?_⟩
  have place : (2 : ℚ) ^ y.exponent = 4 * 2 ^ (y.exponent - x.exponent).toNat * x.unit := by
    rw [unit, ← zpow_natCast, show (4 : ℚ) = 2 ^ (2 : Int) by norm_num, ← zpow_add₀ (by norm_num),
      ← zpow_add₀ (by norm_num)]
    congr 1
    omega
  rw [magnitude, place]
  push_cast
  ring

/-- A number with a smaller exponent lies below all numbers with 53 bits and the larger one. -/
theorem magnitude_le_of_lt (bits : y.significand < 2 ^ 53) (less : y.exponent < x.exponent) :
    y.magnitude ≤ (4 * 2 ^ 52 - 2) * x.unit := by
  have place : (2 : ℚ) ^ y.exponent ≤ 2 * x.unit := by
    rw [unit, show (2 : ℚ) * 2 ^ (x.exponent - 2) = 2 ^ (1 + (x.exponent - 2)) by
      rw [zpow_add₀ (by norm_num)]; norm_num]
    exact zpow_le_zpow_right₀ (by norm_num) (by omega)
  have most : (y.significand : ℚ) ≤ 2 ^ 53 - 1 := by
    rw [le_sub_iff_add_le]
    exact_mod_cast bits
  calc y.magnitude
    _ ≤ (2 ^ 53 - 1) * (2 * x.unit) := mul_le_mul most place (by positivity) (by norm_num)
    _ = (4 * 2 ^ 52 - 2) * x.unit := by ring

theorem range_eq (nonzero : x.significand ≠ 0) :
    (x.range.high : ℚ) = 4 * x.significand + 2 ∧ (4 * x.significand - 2 : ℚ) ≤ x.range.low ∧
      (x.significand = 2 ^ 52 → leastExponent < x.exponent →
        (x.range.low : ℚ) = 4 * x.significand - 1) := by
  have positive : 1 ≤ 4 * x.significand := by omega
  refine ⟨by simp [range], ?_, fun power above => ?_⟩
  · simp only [range]
    rw [sub_le_iff_le_add]
    split
    · exact_mod_cast (show 4 * x.significand ≤ 4 * x.significand - 1 + 2 by omega)
    · exact_mod_cast (show 4 * x.significand ≤ 4 * x.significand - 2 + 2 by omega)
  · have narrow : x.significand = Nat.pow 2 52 ∧ leastExponent < x.exponent := ⟨power, above⟩
    simp only [range, if_pos narrow]
    rw [Nat.cast_sub positive]
    push_cast
    rfl

/-- The other numbers lie as far beyond the ends of the range as the number lies inside. -/
theorem neighbours (canonical : x.Canonical) (nonzero : x.significand ≠ 0)
    (bits : y.significand < 2 ^ 53) (least : leastExponent ≤ y.exponent)
    (different : x.magnitude ≠ y.magnitude) :
    2 * x.range.high * x.unit ≤ x.magnitude + y.magnitude ∨
      x.magnitude + y.magnitude ≤ 2 * x.range.low * x.unit := by
  have positive := x.unit_pos
  obtain ⟨high, low, narrow⟩ := range_eq nonzero
  have magnitude := magnitude_eq_unit x
  -- A number with a smaller exponent lies below. All others are multiples of the last place of the
  -- number.
  rcases Int.lt_or_le y.exponent x.exponent with less | le
  · refine Or.inr ?_
    have most := magnitude_le_of_lt bits less
    have full : 2 ^ 52 ≤ x.significand := by
      rcases canonical.leading with full | smallest
      · exact full
      · omega
    rcases Nat.eq_or_lt_of_le full with power | more
    · have low := narrow power.symm (by omega)
      have power : (x.significand : ℚ) = 2 ^ 52 := by exact_mod_cast power.symm
      rw [magnitude, low, power]
      linarith
    · have more : (2 : ℚ) ^ 52 + 1 ≤ x.significand := by exact_mod_cast more
      rw [magnitude]
      nlinarith
  · obtain ⟨count, multiple⟩ := magnitude_eq_multiple le
    rw [magnitude, multiple] at different ⊢
    rcases Nat.lt_trichotomy count x.significand with below | same | above
    · have le : (count : ℚ) ≤ x.significand - 1 := by
        rw [le_sub_iff_add_le]
        exact_mod_cast below
      exact Or.inr (by nlinarith)
    · exact absurd (by rw [same]) different
    · have le : (x.significand : ℚ) + 1 ≤ count := by exact_mod_cast above
      rw [high]
      exact Or.inl (by nlinarith)

/-- What is not beyond the midpoint of two values is not nearer to the other one. -/
theorem closer_of_le_midpoint {a b q : ℚ} (less : a < b) (near : 2 * q ≤ a + b) :
    |q - a| ≤ |q - b| ∧ (|q - a| = |q - b| → 2 * q = a + b) := by
  have distance : |q - b| = b - q := by
    rw [abs_sub_comm]
    exact abs_of_nonneg (by linarith)
  rw [distance]
  rcases le_total a q with above | below
  · rw [abs_of_nonneg (by linarith)]
    exact ⟨by linarith, fun same => by linarith⟩
  · rw [abs_of_nonpos (by linarith)]
    exact ⟨by linarith, fun same => by linarith⟩

theorem closer_of_midpoint_le {a b q : ℚ} (less : b < a) (near : a + b ≤ 2 * q) :
    |q - a| ≤ |q - b| ∧ (|q - a| = |q - b| → 2 * q = a + b) := by
  have distance : |q - b| = q - b := abs_of_nonneg (by linarith)
  rw [distance]
  rcases le_total a q with above | below
  · rw [abs_of_nonneg (by linarith)]
    exact ⟨by linarith, fun same => by linarith⟩
  · rw [abs_of_nonpos (by linarith)]
    exact ⟨by linarith, fun same => by linarith⟩

theorem magnitude_inside (nonzero : x.significand ≠ 0) :
    x.range.low * x.unit < x.magnitude ∧ x.magnitude < x.range.high * x.unit := by
  have order : x.range.low < 4 * x.significand ∧ 4 * x.significand < x.range.high := by
    simp only [range]
    split <;> omega
  rw [magnitude_eq_unit]
  exact ⟨mul_lt_mul_of_pos_right (by exact_mod_cast order.1) x.unit_pos,
    mul_lt_mul_of_pos_right (by exact_mod_cast order.2) x.unit_pos⟩

/-- The values that are rounded to a number: those in its range, the ends included if its significand is
even. -/
theorem isNearest_of_range (canonical : x.Canonical) (nonzero : x.significand ≠ 0) {q : ℚ}
    (low : x.range.low * x.unit ≤ q) (high : q ≤ x.range.high * x.unit)
    (inner : x.significand % 2 ≠ 0 → x.range.low * x.unit < q ∧ q < x.range.high * x.unit) :
    x.IsNearest q := by
  have closer (y : Binary64) (bits : y.significand < 2 ^ 53) (least : leastExponent ≤ y.exponent)
      (different : x.magnitude ≠ y.magnitude) : |q - x.magnitude| ≤ |q - y.magnitude| ∧
        (|q - x.magnitude| = |q - y.magnitude| → x.significand % 2 = 0) := by
    obtain ⟨fromLow, toHigh⟩ := magnitude_inside nonzero
    rcases neighbours canonical nonzero bits least different with beyond | beyond
    · obtain ⟨nearer, tie⟩ := closer_of_le_midpoint (a := x.magnitude) (b := y.magnitude) (q := q)
        (by linarith) (by linarith)
      refine ⟨nearer, fun same => of_not_not fun odd => ?_⟩
      have middle := tie same
      have less := (inner odd).2
      linarith
    · obtain ⟨nearer, tie⟩ := closer_of_midpoint_le (a := x.magnitude) (b := y.magnitude) (q := q)
        (by linarith) (by linarith)
      refine ⟨nearer, fun same => of_not_not fun odd => ?_⟩
      have middle := tie same
      have more := (inner odd).1
      linarith
  refine ⟨fun y bits least => ?_, fun y bits least same different => ?_⟩
  · rcases eq_or_ne x.magnitude y.magnitude with same | different
    · rw [same]
    · exact (closer y bits least different).1
  · exact (closer y bits least different).2 same

/-- A canonical number is larger than all numbers with a smaller exponent. -/
theorem magnitude_lt_of_exponent_lt (canonical : y.Canonical) (bits : x.significand < 2 ^ 53)
    (least : leastExponent ≤ x.exponent) (less : x.exponent < y.exponent) :
    x.magnitude < y.magnitude := by
  have full : 2 ^ 52 ≤ y.significand := by
    rcases canonical.leading with full | smallest
    · exact full
    · omega
  have positive := y.unit_pos
  have full : (2 : ℚ) ^ 52 ≤ y.significand := by exact_mod_cast full
  have most := magnitude_le_of_lt bits less
  rw [magnitude_eq_unit y]
  nlinarith

/-- A magnitude has one form. -/
theorem eq_of_magnitude (canonical : x.Canonical) (canonical' : y.Canonical)
    (same : x.magnitude = y.magnitude) : x.significand = y.significand ∧ x.exponent = y.exponent := by
  have exponents : x.exponent = y.exponent := by
    rcases Int.lt_trichotomy x.exponent y.exponent with less | equal | less
    · exact absurd same
        (magnitude_lt_of_exponent_lt canonical' canonical.significand canonical.least less).ne
    · exact equal
    · exact absurd same
        (magnitude_lt_of_exponent_lt canonical canonical'.significand canonical'.least less).ne'
  have place : (2 : ℚ) ^ y.exponent ≠ 0 := by positivity
  rw [magnitude, magnitude, exponents] at same
  exact ⟨by exact_mod_cast mul_right_cancel₀ place same, exponents⟩

/-- The number after an even one lies between this and any larger one. -/
theorem exists_between (canonical : x.Canonical) (canonical' : y.Canonical)
    (even : x.significand % 2 = 0) (even' : y.significand % 2 = 0) (less : x.magnitude < y.magnitude) :
    ∃ z : Binary64, z.significand < 2 ^ 53 ∧ leastExponent ≤ z.exponent ∧
      x.magnitude < z.magnitude ∧ z.magnitude < y.magnitude := by
  -- The next number after an even one is odd, so it is not the other even number.
  let z : Binary64 := ⟨x.negative, x.significand + 1, x.exponent⟩
  have bits := canonical.significand
  have fits : z.Fits := ⟨by dsimp only [z]; omega, canonical.least, canonical.greatest⟩
  have next : z.Canonical := ⟨fits, canonical.leading.imp_left fun full => Nat.le_succ_of_le full⟩
  have place : (0 : ℚ) < 2 ^ x.exponent := by positivity
  have step : z.magnitude = x.magnitude + 2 ^ x.exponent := by
    simp only [z, magnitude]
    push_cast
    ring
  have different : z.magnitude ≠ y.magnitude := fun same => by
    have same := (eq_of_magnitude next canonical' same).1
    dsimp only [z] at same
    omega
  refine ⟨z, fits.significand, fits.least, by linarith, lt_of_le_of_ne ?_ different⟩
  rcases Int.lt_or_le y.exponent x.exponent with lower | higher
  · exact absurd less (not_lt.mpr
      (magnitude_lt_of_exponent_lt canonical canonical'.significand canonical'.least lower).le)
  · obtain ⟨count, multiple⟩ := magnitude_eq_multiple higher
    have positive := x.unit_pos
    have value := magnitude_eq_unit z
    rw [multiple, magnitude_eq_unit x] at less
    have more : x.significand + 1 ≤ count := by
      by_contra few
      have few : (count : ℚ) ≤ x.significand := by exact_mod_cast Nat.le_of_not_lt few
      nlinarith
    have more : (z.significand : ℚ) ≤ count := by exact_mod_cast more
    rw [value, multiple]
    exact mul_le_mul_of_nonneg_right (by linarith) positive.le

/-- What lies between two values is nearer to their midpoint. -/
theorem nearer_of_between {a b c q : ℚ} (above : a < c) (below : c < b) (same : |q - a| = |q - b|) :
    |q - c| < |q - a| := by
  have middle : q - a = -(q - b) := (abs_eq_abs.mp same).resolve_left fun equal => by linarith
  rw [abs_of_pos (by linarith : 0 < q - a), abs_lt]
  exact ⟨by linarith, by linarith⟩

/-- A value is rounded to one number. -/
theorem IsNearest.unique {q : ℚ} (canonical : x.Canonical) (canonical' : y.Canonical)
    (nearest : x.IsNearest q) (nearest' : y.IsNearest q) :
    x.significand = y.significand ∧ x.exponent = y.exponent := by
  have same : |q - x.magnitude| = |q - y.magnitude| :=
    le_antisymm (nearest.nearest y canonical'.significand canonical'.least)
      (nearest'.nearest x canonical.significand canonical.least)
  refine eq_of_magnitude canonical canonical' (of_not_not fun different => ?_)
  have even := nearest.even y canonical'.significand canonical'.least same different
  have even' :=
    nearest'.even x canonical.significand canonical.least same.symm (Ne.symm different)
  rcases lt_or_gt_of_ne different with less | more
  · obtain ⟨z, bits, least, above, below⟩ := exists_between canonical canonical' even even' less
    exact absurd (nearest.nearest z bits least) (not_le.mpr (nearer_of_between above below same))
  · obtain ⟨z, bits, least, above, below⟩ := exists_between canonical' canonical even' even more
    exact absurd (nearest'.nearest z bits least)
      (not_le.mpr (nearer_of_between above below same.symm))

theorem quarter_le_iff (x : Binary64) (power : Int) (n count : Nat) :
    n * x.quarter power ≤ count * x.step power ↔ (n * x.unit : ℚ) ≤ count * 10 ^ power := by
  rw [← mul_le_mul_iff_of_pos_right (scale_pos : 0 < x.scale power), mul_assoc, mul_assoc,
    ← quarter_eq, ← step_eq]
  exact_mod_cast Iff.rfl

theorem le_quarter_iff (x : Binary64) (power : Int) (n count : Nat) :
    count * x.step power ≤ n * x.quarter power ↔ (count * 10 ^ power : ℚ) ≤ n * x.unit := by
  rw [← mul_le_mul_iff_of_pos_right (scale_pos : 0 < x.scale power), mul_assoc, mul_assoc,
    ← quarter_eq, ← step_eq]
  exact_mod_cast Iff.rfl

/-- What is inside the range on a grid is rounded to the number. -/
theorem isNearest_of_inside (canonical : x.Canonical) (nonzero : x.significand ≠ 0) {power : Int}
    {count : Nat} (within : x.inside power count) : x.IsNearest (count * 10 ^ power) := by
  have closed : x.range.closed = decide (x.significand % 2 = 0) := rfl
  have ends : x.range.low * x.quarter power ≤ count * x.step power ∧
      count * x.step power ≤ x.range.high * x.quarter power ∧
        (x.significand % 2 ≠ 0 → x.range.low * x.quarter power < count * x.step power ∧
          count * x.step power < x.range.high * x.quarter power) := by
    simp only [inside, closed] at within
    split at within <;> simp only [decide_eq_true_eq, Bool.and_eq_true] at within
    · rename_i even
      exact ⟨within.1, within.2, fun odd => absurd (of_decide_eq_true even) odd⟩
    · exact ⟨within.1.le, within.2.le, fun _ => within⟩
  obtain ⟨low, high, inner⟩ := ends
  refine isNearest_of_range canonical nonzero ((quarter_le_iff x power _ _).mp low)
    ((le_quarter_iff x power _ _).mp high) fun odd => ⟨?_, ?_⟩
  · exact not_le.mp fun le => absurd ((le_quarter_iff x power _ _).mpr le) (not_le.mpr (inner odd).1)
  · exact not_le.mp fun le => absurd ((quarter_le_iff x power _ _).mpr le) (not_le.mpr (inner odd).2)

/-- Of all numbers the one is nearest to its shortest decimal. -/
theorem isNearest_shortest (canonical : x.Canonical) : x.IsNearest x.shortest.value := by
  rcases eq_or_ne x.significand 0 with zero | nonzero
  · have decimal : x.shortest.value = 0 := by
      rw [shortest, if_pos zero, Decimal.value, Nat.cast_zero, zero_mul]
    have none : x.magnitude = 0 := by rw [magnitude, zero, Nat.cast_zero, zero_mul]
    rw [decimal]
    refine ⟨fun y _ _ => ?_, fun _ _ _ _ _ => by rw [zero]⟩
    rw [none, sub_zero, abs_zero]
    exact abs_nonneg _
  · exact isNearest_of_inside canonical nonzero (shortest_inside canonical.toFits nonzero)

end Binary64

end WorkflowKit
