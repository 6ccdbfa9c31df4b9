-- Decimal numbers read the quick way: the leading digits and the power of ten
-- are rounded first, then their product or quotient. The result may be off by
-- a step from the nearest number.
import SerialLink.Bytes
import SerialLink.Number.Binary64

namespace SerialLink

/-- The leading digits of a number that make up a 64-bit word, and how many more there are. -/
def leadingWord (n : Nat) : Nat × Nat :=
  if n ≤ wordMax then (n, 0)
  else
    let (lead, more) := leadingWord (n / 10)
    (lead, more + 1)
termination_by n
decreasing_by
  simp only [wordMax] at *
  omega

namespace Binary64

/-- The largest power of ten that is a number of its own. -/
def greatestPower : Nat := 308

/-- Brings a number to its power of ten, in steps that are themselves numbers. What is too large
is refused. Four steps take the smallest of words to zero. -/
def scaleBy : Nat → Binary64 → Int → Option Binary64
  | 0, _, _ => none
  | steps + 1, x, exponent =>
    if exponent.natAbs ≤ greatestPower then
      if 0 ≤ exponent then some (x.mul (ofNat (tenTo exponent.toNat))) |>.filter isFinite
      else some (x.div (ofNat (tenTo exponent.natAbs)))
    else if x.isZero then some x
    else if 0 ≤ exponent then none
    else scaleBy steps (x.div (ofNat (tenTo greatestPower))) (exponent + greatestPower)

/-- `coefficient * 10 ^ exponent`, read the quick way. -/
def ofScaled (negative : Bool) (coefficient : Nat) (exponent : Int) : Option Binary64 :=
  let (lead, more) := leadingWord coefficient
  (scaleBy 4 (ofNat lead) (exponent + more)).map fun x => if negative then x.neg else x

end Binary64

end SerialLink
