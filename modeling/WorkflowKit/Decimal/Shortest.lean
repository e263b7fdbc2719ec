import WorkflowKit.Decimal.Binary64

namespace WorkflowKit

/-- The decimal `digits * 10 ^ power`. -/
structure Decimal where
  digits : Nat
  power : Int
  deriving DecidableEq, Repr

namespace Binary64

/-- The decimals that read back as a positive number, in quarters of its last place. -/
structure Range where
  low : Nat
  value : Nat
  high : Nat
  closed : Bool

def range (x : Binary64) : Range :=
  let value := 4 * x.significand
  let narrow := x.significand = Nat.pow 2 52 ∧ leastExponent < x.exponent
  ⟨if narrow then value - 1 else value - 2, value, value + 2, x.significand % 2 = 0⟩

/-- The multiple of `10 ^ power` in the range that is nearest to the number, as a count of such
powers. -/
def onGrid (x : Binary64) (power : Int) : Option Nat :=
  let bounds := x.range
  let unit := x.exponent - 2
  let factor := Nat.pow 10 (-power).toNat * Nat.pow 2 unit.toNat
  let step := Nat.pow 10 power.toNat * Nat.pow 2 (-unit).toNat
  let inside (count : Nat) : Bool :=
    if bounds.closed then bounds.low * factor ≤ count * step && count * step ≤ bounds.high * factor
    else bounds.low * factor < count * step && count * step < bounds.high * factor
  let exact := bounds.value * factor
  let below := exact / step
  let above := below + 1
  match inside below, inside above with
  | true, true =>
    let toBelow := exact - below * step
    let toAbove := above * step - exact
    if toBelow < toAbove then some below
    else if toAbove < toBelow then some above
    else some (below + below % 2)
  | true, false => some below
  | false, true => some above
  | false, false => none

/-- Looks at the grids from `power` downwards. -/
def firstOnGrid (x : Binary64) : Nat → Int → Decimal
  | 0, power => ⟨(x.onGrid power).getD 0, power⟩
  | grids + 1, power =>
    match x.onGrid power with
    | some digits => ⟨digits, power⟩
    | none => firstOnGrid x grids (power - 1)

/-- An exponent with a power of ten above the number: 0.30103 is more than the logarithm of two. -/
def powerAbove (x : Binary64) : Int :=
  ((x.significand.log2 : Int) + x.exponent + 1) * 30103 / 100000 + 1

/-- The shortest decimal that reads back as the magnitude of a number. -/
def shortest (x : Binary64) : Decimal :=
  if x.significand = 0 then ⟨0, 0⟩ else x.firstOnGrid 20 x.powerAbove

end Binary64

end WorkflowKit
