import WorkflowKit.Decimal.Shortest

namespace WorkflowKit

/-- The digits of a number in base ten. -/
def decimalDigits (n : Nat) : List Char :=
  Nat.toDigits 10 n

def decimalInt (n : Int) : List Char :=
  if n < 0 then '-' :: decimalDigits n.natAbs else decimalDigits n.natAbs

namespace Decimal

/-- The place of the point in the digits, counted from their start. -/
def point (d : Decimal) : Int :=
  (decimalDigits d.digits).length + d.power

/-- All digits before and after a point, with at least one digit on either side. -/
def positional (d : Decimal) : List Char :=
  let digits := decimalDigits d.digits
  if 0 ≤ d.power then digits ++ List.replicate d.power.toNat '0' ++ ['.', '0']
  else if 0 < d.point then digits.take d.point.toNat ++ '.' :: digits.drop d.point.toNat
  else '0' :: '.' :: List.replicate (-d.point).toNat '0' ++ digits

/-- One digit before the point and an exponent with its sign. -/
def scientific (d : Decimal) : List Char :=
  let exponent := d.point - 1
  let tail := 'e' :: (if exponent < 0 then '-' else '+') :: decimalDigits exponent.natAbs
  match decimalDigits d.digits with
  | [] => tail
  | [digit] => digit :: tail
  | digit :: others => digit :: '.' :: others ++ tail

end Decimal

namespace Binary64

/-- A number with the fewest digits, in positional layout. -/
def positional (x : Binary64) : List Char :=
  let magnitude := x.shortest.positional
  if x.negative then '-' :: magnitude else magnitude

/-- A number with the fewest digits: in positional layout while the point stands at most sixteen
places to the right of the first digit or five places to its left, else with an exponent. -/
def written (x : Binary64) : List Char :=
  let d := x.shortest
  let magnitude := if -5 < d.point ∧ d.point ≤ 16 then d.positional else d.scientific
  if x.negative then '-' :: magnitude else magnitude

end Binary64

end WorkflowKit
