namespace WorkflowKit

/-- The number `significand * 2 ^ exponent`, with a sign. -/
structure Binary64 where
  negative : Bool
  significand : Nat
  exponent : Int
  deriving DecidableEq, Repr

namespace Binary64

/-- The exponent of the numbers next to zero. -/
def leastExponent : Int := -1074

def greatestExponent : Int := 971

def zero (negative : Bool) : Binary64 :=
  ⟨negative, 0, leastExponent⟩

/-- A quotient rounded to the nearest integer, a half to the even neighbour. -/
def nearest (numerator denominator : Nat) : Nat :=
  let quotient := numerator / denominator
  let twice := 2 * (numerator % denominator)
  if twice < denominator then quotient
  else if denominator < twice then quotient + 1
  else quotient + quotient % 2

/-- The exponent at which a positive quotient has a significand of 53 bits, or the least one. -/
def exponentOf (numerator denominator : Nat) : Int :=
  let low : Int := (numerator.log2 : Int) - denominator.log2 - 53
  let fits : Bool :=
    numerator * Nat.pow 2 (-low).toNat < Nat.pow 2 53 * (denominator * Nat.pow 2 low.toNat)
  max leastExponent (if fits then low else low + 1)

/-- The number nearest to a quotient, `none` if it is too large for the format. -/
def ofQuotient (negative : Bool) (numerator denominator : Nat) : Option Binary64 :=
  if numerator = 0 then some (zero negative)
  else
    let exponent := exponentOf numerator denominator
    let significand :=
      nearest (numerator * Nat.pow 2 (-exponent).toNat) (denominator * Nat.pow 2 exponent.toNat)
    let number : Binary64 :=
      if significand = Nat.pow 2 53 then ⟨negative, Nat.pow 2 52, exponent + 1⟩
      else ⟨negative, significand, exponent⟩
    if number.exponent ≤ greatestExponent then some number else none

def ofNat (n : Nat) : Binary64 :=
  (ofQuotient false n 1).getD (zero false)

def quotient (x : Binary64) : Nat × Nat :=
  (x.significand * Nat.pow 2 x.exponent.toNat, Nat.pow 2 (-x.exponent).toNat)

/-- The product, `none` if it is too large. -/
def mul (x y : Binary64) : Option Binary64 :=
  ofQuotient (x.negative != y.negative) (x.quotient.1 * y.quotient.1)
    (x.quotient.2 * y.quotient.2)

/-- The quotient by a number other than zero, `none` if it is too large. -/
def div (x y : Binary64) : Option Binary64 :=
  ofQuotient (x.negative != y.negative) (x.quotient.1 * y.quotient.2)
    (x.quotient.2 * y.quotient.1)

def withSign (negative : Bool) (x : Binary64) : Binary64 :=
  { x with negative }

/-- The number nearest to `digits * 10 ^ power`, `none` if it is too large. Powers out of reach of
the format are cut off before the exact value is formed. -/
def ofDecimal (negative : Bool) (digits : Nat) (power : Int) : Option Binary64 :=
  let size : Int := (Nat.toDigits 10 digits).length + power
  if digits = 0 ∨ size < -400 then some (zero negative)
  else if 400 < size then none
  else ofQuotient negative (digits * Nat.pow 10 power.toNat) (Nat.pow 10 (-power).toNat)

end Binary64

end WorkflowKit
