import WorkflowKit.Decimal.Shortest
import WorkflowKit.Proofs.Decimal.Rounding

namespace WorkflowKit.Binary64

/-- A quarter of the last place of a number and a power of ten, in a unit that divides both. -/
def quarter (x : Binary64) (power : Int) : Nat :=
  Nat.pow 10 (-power).toNat * Nat.pow 2 (x.exponent - 2).toNat

def step (x : Binary64) (power : Int) : Nat :=
  Nat.pow 10 power.toNat * Nat.pow 2 (-(x.exponent - 2)).toNat

/-- The multiple of a power of ten next to a number from below, as a count. -/
def below (x : Binary64) (power : Int) : Nat :=
  x.range.value * x.quarter power / x.step power

def inside (x : Binary64) (power : Int) (count : Nat) : Bool :=
  let low := x.range.low * x.quarter power
  let high := x.range.high * x.quarter power
  let value := count * x.step power
  if x.range.closed then low ≤ value && value ≤ high else low < value && value < high

variable {x : Binary64} {power : Int}

theorem quarter_pos : 0 < x.quarter power :=
  Nat.mul_pos (Nat.pow_pos (by decide)) (Nat.pow_pos (by decide))

theorem step_pos : 0 < x.step power :=
  Nat.mul_pos (Nat.pow_pos (by decide)) (Nat.pow_pos (by decide))

/-- What is found on a grid is inside the range, and something is found if the multiple next to the
number from above is inside. -/
theorem onGrid_cases (x : Binary64) (power : Int) :
    (∃ count, x.onGrid power = some count ∧ x.inside power count) ∨
      x.onGrid power = none ∧ ¬ x.inside power (x.below power + 1) := by
  unfold onGrid
  extract_lets bounds unit factor step inside value below above
  split
  · rename_i lower upper
    refine Or.inl ?_
    extract_lets
    split
    · exact ⟨_, rfl, lower⟩
    · split
      · exact ⟨_, rfl, upper⟩
      · -- Of two that are as near, the even one is found.
        refine ⟨_, rfl, ?_⟩
        rcases Nat.mod_two_eq_zero_or_one below with even | odd
        · rw [even]
          exact lower
        · rw [odd]
          exact upper
  · rename_i lower _
    exact Or.inl ⟨_, rfl, lower⟩
  · rename_i upper
    exact Or.inl ⟨_, rfl, upper⟩
  · rename_i upper
    exact Or.inr ⟨rfl, fun found => Bool.false_ne_true (upper.symm.trans found)⟩

theorem onGrid_ne_zero (nonzero : x.significand ≠ 0) {count : Nat}
    (found : x.onGrid power = some count) : count ≠ 0 := by
  have low : 0 < x.range.low * x.quarter power := by
    refine Nat.mul_pos ?_ quarter_pos
    simp only [range]
    split <;> omega
  rintro rfl
  obtain ⟨_, found', within⟩ | ⟨missing, _⟩ := onGrid_cases x power
  · obtain rfl := Option.some.inj (found'.symm.trans found)
    simp only [inside, Nat.zero_mul] at within
    split at within <;> simp only [Bool.and_eq_true, decide_eq_true_eq] at within <;> omega
  · rw [missing] at found
    cases found

/-- A grid with a step less than half a place of the number has a multiple in the range. -/
theorem onGrid_isSome (fine : x.step power < 2 * x.quarter power) : (x.onGrid power).isSome := by
  obtain ⟨count, found, _⟩ | ⟨_, outside⟩ := onGrid_cases x power
  · rw [found]
    rfl
  · refine absurd ?_ outside
    have low : x.range.low * x.quarter power ≤ x.range.value * x.quarter power := by
      refine Nat.mul_le_mul_right _ ?_
      simp only [range]
      split <;> omega
    have high : x.range.high * x.quarter power =
        x.range.value * x.quarter power + 2 * x.quarter power := Nat.add_mul _ _ _
    have next : x.range.value * x.quarter power < (x.below power + 1) * x.step power :=
      Nat.lt_mul_of_div_lt (Nat.lt_succ_self _) step_pos
    have near : (x.below power + 1) * x.step power ≤
        x.range.value * x.quarter power + x.step power := by
      rw [Nat.succ_mul]
      exact Nat.add_le_add_right (Nat.div_mul_le_self _ _) _
    simp only [inside]
    split <;> simp only [Bool.and_eq_true, decide_eq_true_eq] <;> omega

/-- The value of a quarter of the last place of a number. -/
def unit (x : Binary64) : ℚ :=
  2 ^ (x.exponent - 2)

theorem unit_pos (x : Binary64) : 0 < x.unit :=
  zpow_pos (by norm_num) _

/-- How often the unit of a grid is in one. -/
def scale (x : Binary64) (power : Int) : ℚ :=
  10 ^ (-power).toNat * 2 ^ (-(x.exponent - 2)).toNat

theorem scale_pos : 0 < x.scale power := by
  unfold scale
  positivity

theorem quarter_eq : (x.quarter power : ℚ) = x.unit * x.scale power := by
  have twos : x.unit * 2 ^ (-(x.exponent - 2)).toNat = 2 ^ (x.exponent - 2).toNat :=
    zpow_mul_pow (by decide) (x.exponent - 2)
  simp only [quarter, scale, Nat.cast_mul, Nat.pow_eq, Nat.cast_pow, Nat.cast_ofNat, ← twos]
  ring

theorem step_eq : (x.step power : ℚ) = 10 ^ power * x.scale power := by
  have tens : (10 : ℚ) ^ power * 10 ^ (-power).toNat = 10 ^ power.toNat :=
    zpow_mul_pow (by decide) power
  simp only [step, scale, Nat.cast_mul, Nat.pow_eq, Nat.cast_pow, Nat.cast_ofNat, ← tens]
  ring

theorem step_lt (fine : (10 : ℚ) ^ power < 2 * x.unit) : x.step power < 2 * x.quarter power := by
  have scaled : (x.step power : ℚ) < (2 * x.quarter power : Nat) := by
    rw [Nat.cast_mul, quarter_eq, step_eq, Nat.cast_ofNat, ← mul_assoc]
    exact mul_lt_mul_of_pos_right fine scale_pos
  exact_mod_cast scaled

theorem ten_pow_lt_two_pow {n m : Nat} (less : 10 * n < 3 * m) : 10 ^ n < 2 ^ m := by
  refine lt_of_pow_lt_pow_left₀ 3 (Nat.zero_le _) ?_
  calc (10 ^ n) ^ 3
    _ = (10 ^ 3) ^ n := Nat.pow_right_comm _ _ _
    _ ≤ (2 ^ 10) ^ n := Nat.pow_le_pow_left (by decide) n
    _ = 2 ^ (10 * n) := (Nat.pow_mul _ _ _).symm
    _ < 2 ^ (3 * m) := Nat.pow_lt_pow_right (by decide) less
    _ = (2 ^ m) ^ 3 := by rw [← Nat.pow_mul, Nat.mul_comm]

theorem two_pow_lt_ten_pow {n m : Nat} (less : 28 * m < 93 * n) : 2 ^ m < 10 ^ n := by
  refine lt_of_pow_lt_pow_left₀ 28 (Nat.zero_le _) ?_
  calc (2 ^ m) ^ 28
    _ = 2 ^ (28 * m) := by rw [← Nat.pow_mul, Nat.mul_comm]
    _ < 2 ^ (93 * n) := Nat.pow_lt_pow_right (by decide) less
    _ = (2 ^ 93) ^ n := Nat.pow_mul _ _ _
    _ ≤ (10 ^ 28) ^ n := Nat.pow_le_pow_left (by decide) n
    _ = (10 ^ n) ^ 28 := Nat.pow_right_comm _ _ _

/-- After twenty grids the step is less than half a place. -/
theorem pow_lt_of_powerAbove (fits : x.Fits) :
    (10 : ℚ) ^ (x.powerAbove - 20) < 2 * x.unit := by
  have half : 2 * x.unit = 2 ^ (x.exponent - 1) := by
    rw [unit, show x.exponent - 1 = 1 + (x.exponent - 2) by omega, zpow_add₀ (by norm_num), zpow_one]
  rw [half]
  have least := fits.least
  have greatest := fits.greatest
  have digits : x.significand.log2 < 53 := by
    rcases Nat.eq_zero_or_pos x.significand with zero | positive
    · rw [zero]
      decide
    · exact (Nat.log2_lt positive.ne').mpr fits.significand
  -- The power is estimated with 0.30103 as the logarithm of two to the base ten.
  have place : 100000 * (x.powerAbove - 20 + 19) ≤ 30103 * (x.exponent + 53) := by
    unfold powerAbove
    omega
  simp only [leastExponent, greatestExponent] at least greatest
  generalize x.powerAbove - 20 = power at place
  rcases Int.lt_or_le power 0 with below | above
  · obtain ⟨n, rfl⟩ : ∃ n : Nat, power = -n := ⟨power.natAbs, by omega⟩
    have less : 2 ^ (1 - x.exponent).toNat < 10 ^ n := two_pow_lt_ten_pow (by omega)
    calc (10 : ℚ) ^ (-n : Int)
      _ < 2 ^ (-((1 - x.exponent).toNat : Int)) := by
        rw [zpow_neg, zpow_neg, zpow_natCast, zpow_natCast]
        exact inv_strictAnti₀ (by positivity) (by exact_mod_cast less)
      _ ≤ 2 ^ (x.exponent - 1) := zpow_le_zpow_right₀ (by norm_num) (by omega)
  · obtain ⟨n, rfl⟩ : ∃ n : Nat, power = n := ⟨power.toNat, by omega⟩
    obtain ⟨m, same⟩ : ∃ m : Nat, x.exponent - 1 = m := ⟨(x.exponent - 1).toNat, by omega⟩
    have less : 10 ^ n < 2 ^ m := ten_pow_lt_two_pow (by omega)
    rw [same, zpow_natCast, zpow_natCast]
    exact_mod_cast less

/-- The first grid on which something is found, if there is one. -/
theorem firstOnGrid_found (grids : Nat) (fine : (x.onGrid (power - grids)).isSome) :
    ∃ digits found, x.onGrid found = some digits ∧ x.firstOnGrid grids power = ⟨digits, found⟩ := by
  induction grids generalizing power with
  | zero =>
    obtain ⟨digits, found⟩ := Option.isSome_iff_exists.mp fine
    rw [Nat.cast_zero, Int.sub_zero] at found
    exact ⟨digits, power, found, by rw [firstOnGrid, found]; rfl⟩
  | succ grids ih =>
    rw [firstOnGrid]
    split
    · rename_i digits found
      exact ⟨digits, power, found, rfl⟩
    · refine ih ?_
      rwa [show power - 1 - grids = power - (grids + 1 : Nat) by omega]

/-- The search comes to an end: the shortest decimal is on its grid. -/
theorem shortest_found (fits : x.Fits) (nonzero : x.significand ≠ 0) :
    x.onGrid x.shortest.power = some x.shortest.digits := by
  obtain ⟨digits, power, found, first⟩ :=
    firstOnGrid_found 20 (onGrid_isSome (step_lt (pow_lt_of_powerAbove fits)))
  rwa [shortest, if_neg nonzero, first]

/-- Only zero is written as zero. -/
theorem shortest_digits_ne_zero (fits : x.Fits) (nonzero : x.significand ≠ 0) :
    x.shortest.digits ≠ 0 :=
  onGrid_ne_zero nonzero (shortest_found fits nonzero)

/-- Zero has one shortest decimal. -/
theorem shortest_normal (fits : x.Fits) : x.shortest.digits ≠ 0 ∨ x.shortest.power = 0 := by
  rcases eq_or_ne x.significand 0 with zero | nonzero
  · rw [shortest, if_pos zero]
    exact Or.inr rfl
  · exact Or.inl (shortest_digits_ne_zero fits nonzero)

/-- The shortest decimal of a number lies in its range. -/
theorem shortest_inside (fits : x.Fits) (nonzero : x.significand ≠ 0) :
    x.inside x.shortest.power x.shortest.digits := by
  obtain ⟨digits, found, within⟩ | ⟨missing, _⟩ := onGrid_cases x x.shortest.power
  · rwa [Option.some.inj ((shortest_found fits nonzero).symm.trans found)]
  · rw [shortest_found fits nonzero] at missing
    cases missing

end WorkflowKit.Binary64
