import WorkflowKit.Decimal.Binary64
import Mathlib.Algebra.Order.Field.Power
import Mathlib.Data.Rat.Cast.Order
import Mathlib.Tactic.Positivity
import Mathlib.Tactic.Ring

namespace WorkflowKit.Binary64

structure Fits (x : Binary64) : Prop where
  significand : x.significand < 2 ^ 53
  least : leastExponent ≤ x.exponent
  greatest : x.exponent ≤ greatestExponent

/-- Holds of the numbers in the form that rounding gives them: with all 53 bits, or as small as the
format allows. -/
structure Canonical (x : Binary64) : Prop extends x.Fits where
  leading : 2 ^ 52 ≤ x.significand ∨ x.exponent = leastExponent

/-- A power with a sign, as a quotient of powers without one. -/
theorem zpow_mul_pow {base : Nat} (positive : 0 < base) (exponent : Int) :
    (base : ℚ) ^ exponent * base ^ (-exponent).toNat = base ^ exponent.toNat := by
  have nonzero : (base : ℚ) ≠ 0 := by positivity
  rw [← zpow_natCast, ← zpow_natCast, ← zpow_add₀ nonzero]
  congr 1
  omega

theorem mul_pow_lt_iff (n m : Nat) (exponent : Int) :
    n * 2 ^ (-exponent).toNat < m * 2 ^ exponent.toNat ↔ (n : ℚ) < m * 2 ^ exponent := by
  have scale : (0 : ℚ) < 2 ^ (-exponent).toNat := by positivity
  have split : (2 : ℚ) ^ exponent * 2 ^ (-exponent).toNat = 2 ^ exponent.toNat :=
    zpow_mul_pow (by decide) exponent
  rw [← mul_lt_mul_iff_of_pos_right scale, mul_assoc, split]
  exact_mod_cast Iff.rfl

theorem nearest_zero_le (numerator : Nat) : nearest numerator 0 ≤ 1 := by
  simp only [nearest, Nat.div_zero]
  split
  · omega
  · split <;> omega

theorem nearest_le {numerator denominator bound : Nat}
    (less : numerator < bound * denominator) : nearest numerator denominator ≤ bound := by
  have quotient : numerator / denominator < bound := Nat.div_lt_of_lt_mul (by rwa [mul_comm])
  simp only [nearest]
  split
  · omega
  · split <;> omega

/-- At the exponent that is taken, a quotient has at most 53 bits. -/
theorem lt_exponentOf {numerator denominator : Nat} (positive : 0 < denominator) :
    (numerator : ℚ) < (2 ^ 53 * denominator : Nat) * 2 ^ exponentOf numerator denominator := by
  have larger {low high : Int} (le : low ≤ high)
      (less : (numerator : ℚ) < (2 ^ 53 * denominator : Nat) * 2 ^ low) :
      (numerator : ℚ) < (2 ^ 53 * denominator : Nat) * 2 ^ high := by
    refine less.trans_le (mul_le_mul_of_nonneg_left ?_ (by positivity))
    exact zpow_le_zpow_right₀ (by norm_num) le
  refine larger (le_max_right _ _) ?_
  split
  · rename_i fits
    have fits' := of_decide_eq_true fits
    rw [← mul_assoc] at fits'
    exact (mul_pow_lt_iff _ _ _).mp fits'
  · -- The logarithms bound the quotient by a power that is one larger at most.
    have above : (numerator : ℚ) < 2 ^ (numerator.log2 + 1) := by
      exact_mod_cast Nat.lt_log2_self
    have below : (2 : ℚ) ^ 53 * 2 ^ denominator.log2 ≤ (2 ^ 53 * denominator : Nat) := by
      exact_mod_cast Nat.mul_le_mul_left (2 ^ 53) (Nat.log2_self_le positive.ne')
    calc (numerator : ℚ)
      _ < 2 ^ (numerator.log2 + 1) := above
      _ = 2 ^ 53 * 2 ^ denominator.log2 *
          2 ^ ((numerator.log2 : Int) - denominator.log2 - 53 + 1) := by
        simp only [← zpow_natCast]
        rw [← zpow_add₀ (by norm_num), ← zpow_add₀ (by norm_num)]
        congr 1
        push_cast
        ring
      _ ≤ (2 ^ 53 * denominator : Nat) *
          2 ^ ((numerator.log2 : Int) - denominator.log2 - 53 + 1) := by
        gcongr

/-- At the exponent that is taken, a quotient has all 53 bits, unless it is the least exponent. -/
theorem exponentOf_le {numerator denominator : Nat} (nonzero : numerator ≠ 0) :
    exponentOf numerator denominator = leastExponent ∨
      (2 ^ 52 * denominator : Nat) * 2 ^ exponentOf numerator denominator ≤ (numerator : ℚ) := by
  unfold exponentOf
  extract_lets low fits
  -- The exponent is guessed from the lengths of the operands, and is one too small at most.
  rcases max_choice leastExponent (if fits then low else low + 1) with least | bits
  · exact Or.inl least
  · rw [bits]
    refine Or.inr ?_
    split
    · have above : ((2 ^ 52 * denominator : Nat) : ℚ) ≤ 2 ^ 52 * 2 ^ (denominator.log2 + 1) := by
        exact_mod_cast Nat.mul_le_mul_left (2 ^ 52) Nat.lt_log2_self.le
      calc ((2 ^ 52 * denominator : Nat) : ℚ) * 2 ^ low
        _ ≤ 2 ^ 52 * 2 ^ (denominator.log2 + 1) * 2 ^ low := by gcongr
        _ = 2 ^ numerator.log2 := by
          simp only [← zpow_natCast]
          rw [← zpow_add₀ (by norm_num), ← zpow_add₀ (by norm_num)]
          congr 1
          simp only [low]
          push_cast
          ring
        _ ≤ numerator := by exact_mod_cast Nat.log2_self_le nonzero
    · rename_i exceeds
      have exceeds := of_decide_eq_false (Bool.eq_false_of_not_eq_true exceeds)
      rw [← mul_assoc] at exceeds
      calc ((2 ^ 52 * denominator : Nat) : ℚ) * 2 ^ (low + 1)
        _ = (2 ^ 53 * denominator : Nat) * 2 ^ low := by
          rw [zpow_add_one₀ (by norm_num)]
          push_cast
          ring
        _ ≤ numerator := not_lt.mp ((mul_pow_lt_iff _ _ _).not.mp exceeds)

theorem le_nearest (numerator denominator : Nat) :
    numerator / denominator ≤ nearest numerator denominator := by
  simp only [nearest]
  split
  · exact Nat.le_refl _
  · split <;> omega

theorem fits_zero (negative : Bool) : (zero negative).Fits :=
  ⟨Nat.pow_pos (by decide), le_refl leastExponent, by simp [zero, leastExponent, greatestExponent]⟩

theorem Fits.withSign {x : Binary64} (fits : x.Fits) (negative : Bool) :
    (x.withSign negative).Fits :=
  ⟨fits.significand, fits.least, fits.greatest⟩

/-- What is rounded has at most 53 bits and an exponent of the format. -/
theorem fits_of_ofQuotient {negative : Bool} {numerator denominator : Nat} {x : Binary64}
    (rounded : ofQuotient negative numerator denominator = some x) : x.Fits := by
  unfold ofQuotient at rounded
  split at rounded
  · cases rounded
    exact fits_zero negative
  · have least : leastExponent ≤ exponentOf numerator denominator := le_max_left _ _
    have digits : nearest (numerator * 2 ^ (-exponentOf numerator denominator).toNat)
        (denominator * 2 ^ (exponentOf numerator denominator).toNat) ≤ 2 ^ 53 := by
      rcases Nat.eq_zero_or_pos denominator with rfl | positive
      · rw [Nat.zero_mul]
        exact (nearest_zero_le _).trans (Nat.one_le_pow _ _ (by decide))
      · have bound :=
          (mul_pow_lt_iff numerator (2 ^ 53 * denominator) _).mpr (lt_exponentOf positive)
        rw [mul_assoc] at bound
        exact nearest_le bound
    dsimp only at rounded
    split at rounded
    · split at rounded
      · rename_i reached
        obtain rfl := Option.some.inj rounded
        exact ⟨Nat.pow_lt_pow_right (by decide) (by decide), by dsimp only; omega, reached⟩
      · cases rounded
    · split at rounded
      · rename_i carried reached
        obtain rfl := Option.some.inj rounded
        exact ⟨lt_of_le_of_ne digits carried, least, reached⟩
      · cases rounded

theorem canonical_zero (negative : Bool) : (zero negative).Canonical :=
  ⟨fits_zero negative, Or.inr rfl⟩

theorem Canonical.withSign {x : Binary64} (canonical : x.Canonical) (negative : Bool) :
    (x.withSign negative).Canonical :=
  ⟨canonical.toFits.withSign negative, canonical.leading⟩

/-- What is rounded uses all 53 bits, unless its exponent is the least one. -/
theorem canonical_of_ofQuotient {negative : Bool} {numerator denominator : Nat} {x : Binary64}
    (positive : 0 < denominator) (rounded : ofQuotient negative numerator denominator = some x) :
    x.Canonical := by
  refine ⟨fits_of_ofQuotient rounded, ?_⟩
  unfold ofQuotient at rounded
  split at rounded
  · cases rounded
    exact Or.inr rfl
  · rename_i nonzero
    dsimp only at rounded
    split at rounded
    · split at rounded
      · obtain rfl := Option.some.inj rounded
        exact Or.inl (le_refl _)
      · cases rounded
    · split at rounded
      · obtain rfl := Option.some.inj rounded
        rcases @exponentOf_le numerator denominator nonzero with least | bits
        · exact Or.inr least
        · have bits := not_lt.mp ((mul_pow_lt_iff _ _ _).not.mpr (not_lt.mpr bits))
          rw [mul_assoc] at bits
          have divisor : 0 < denominator * 2 ^ (exponentOf numerator denominator).toNat := by
            positivity
          exact Or.inl (((Nat.le_div_iff_mul_le divisor).mpr bits).trans (le_nearest _ _))
      · cases rounded

theorem fits_of_mul {x y z : Binary64} (product : x.mul y = some z) : z.Fits :=
  fits_of_ofQuotient product

theorem fits_of_div {x y z : Binary64} (ratio : x.div y = some z) : z.Fits :=
  fits_of_ofQuotient ratio

theorem canonical_of_mul {x y z : Binary64} (product : x.mul y = some z) : z.Canonical :=
  canonical_of_ofQuotient
    (Nat.mul_pos (Nat.pow_pos (by decide)) (Nat.pow_pos (by decide))) product

theorem canonical_of_div {x y z : Binary64} (nonzero : y.significand ≠ 0)
    (ratio : x.div y = some z) : z.Canonical :=
  canonical_of_ofQuotient (Nat.mul_pos (Nat.pow_pos (by decide))
    (Nat.mul_pos (Nat.pos_of_ne_zero nonzero) (Nat.pow_pos (by decide)))) ratio

theorem fits_ofNat (n : Nat) : (ofNat n).Fits := by
  unfold ofNat
  cases rounded : ofQuotient false n 1 with
  | none => exact fits_zero false
  | some x => exact fits_of_ofQuotient rounded

theorem canonical_ofNat (n : Nat) : (ofNat n).Canonical := by
  unfold ofNat
  cases rounded : ofQuotient false n 1 with
  | none => exact canonical_zero false
  | some x => exact canonical_of_ofQuotient (by decide) rounded

end WorkflowKit.Binary64
