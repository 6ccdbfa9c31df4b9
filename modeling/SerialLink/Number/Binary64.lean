-- Binary64 numbers, exactly: a sign, a mantissa of at most 53 bits and a power
-- of two. Quotients are rounded to the nearest number, a tie to the even
-- mantissa, in whole-number arithmetic all the way.
import SerialLink.Bytes

namespace SerialLink

/-- A power of two. -/
abbrev twoTo (n : Nat) : Nat := Nat.pow 2 n

/-- A power of ten. -/
abbrev tenTo (n : Nat) : Nat := Nat.pow 10 n

/-- The quotient of `n` by `d` as a whole number, to the nearest, a half to the even neighbour. -/
def roundHalfEven (n d : Nat) : Nat :=
  let q := n / d
  let twice := 2 * (n % d)
  if twice < d then q else if d < twice then q + 1 else if q % 2 = 0 then q else q + 1

/-- A binary64 number. A finite one is `mantissa * 2 ^ exponent`; below `2 ^ 52` the mantissa has
the least exponent, -1074. -/
inductive Binary64
  | finite (negative : Bool) (mantissa : Nat) (exponent : Int)
  | infinite (negative : Bool)
  | nan
  deriving DecidableEq

namespace Binary64

/-- Bits of a mantissa behind the leading one. -/
def fractionBits : Nat := 52

/-- The leading bit of a mantissa of full length. -/
def leadingBit : Nat := twoTo fractionBits

/-- The bit of the sign. -/
def signBit : Nat := 0x8000000000000000

/-- The biased exponent of all that is not finite, in its place. -/
def specialExponent : Nat := 2047 * leadingBit

/-- The exponent of the smallest steps. -/
def leastExponent : Int := -1074

/-- The largest exponent of a finite number. -/
def greatestExponent : Int := 971

def zero : Binary64 := .finite false 0 leastExponent

/-- `num / den` in units of `2 ^ e`, as a quotient of whole numbers. -/
def inUnits (num den : Nat) (e : Int) : Nat × Nat :=
  if 0 ≤ e then (num, den * twoTo e.toNat) else (num * twoTo (-e).toNat, den)

/-- The exponent at which `num / den` has a mantissa of 53 bits, or the least one. -/
def exponentOf (num den : Nat) : Int :=
  let e : Int := (num.log2 : Int) - den.log2 - (fractionBits + 1)
  let (n, d) := inUnits num den e
  max leastExponent (if 2 * leadingBit * d ≤ n then e + 1 else e)

/-- The number nearest to `num / den`. -/
def ofRatio (negative : Bool) (num den : Nat) : Binary64 :=
  if num = 0 then .finite negative 0 leastExponent
  else
    let e := exponentOf num den
    let (n, d) := inUnits num den e
    let m := roundHalfEven n d
    let (m, e) := if m = 2 * leadingBit then (leadingBit, e + 1) else (m, e)
    if greatestExponent < e then .infinite negative else .finite negative m e

/-- The number nearest to a count. -/
def ofNat (n : Nat) : Binary64 := ofRatio false n 1

/-- The number nearest to `coefficient * 10 ^ exponent`. Far outside the range of exponents only
the sign and the direction matter. -/
def ofDecimal (negative : Bool) (coefficient : Nat) (exponent : Int) : Binary64 :=
  if coefficient = 0 then .finite negative 0 leastExponent
  else
    let magnitude := exponent + ((coefficient.log2 : Int) + 1) * 30103 / 100000
    if 400 < magnitude then .infinite negative
    else if magnitude < -400 then .finite negative 0 leastExponent
    else if 0 ≤ exponent then ofRatio negative (coefficient * tenTo exponent.toNat) 1
    else ofRatio negative coefficient (tenTo (-exponent).toNat)

/-- The magnitude of a finite number as a quotient of whole numbers. -/
def magnitude (mantissa : Nat) (exponent : Int) : Nat × Nat :=
  if 0 ≤ exponent then (mantissa * twoTo exponent.toNat, 1)
  else (mantissa, twoTo (-exponent).toNat)

/-- The number nearest to the quotient of two finite numbers, the second of them not zero. -/
def div : Binary64 → Binary64 → Binary64
  | .finite s m e, .finite s' m' e' =>
    let (n, d) := magnitude m e
    let (n', d') := magnitude m' e'
    if n' = 0 then .nan else ofRatio (s != s') (n * d') (d * n')
  | _, _ => .nan

/-- The number nearest to the product of two finite numbers. -/
def mul : Binary64 → Binary64 → Binary64
  | .finite s m e, .finite s' m' e' =>
    let (n, d) := magnitude m e
    let (n', d') := magnitude m' e'
    ofRatio (s != s') (n * n') (d * d')
  | _, _ => .nan

/-- The number with the other sign. -/
def neg : Binary64 → Binary64
  | .finite s m e => .finite (!s) m e
  | .infinite s => .infinite (!s)
  | .nan => .nan

/-- The number is one of the two zeros. -/
def isZero : Binary64 → Bool
  | .finite _ m _ => m == 0
  | _ => false

/-- The number is neither infinite nor no number at all. -/
def isFinite : Binary64 → Bool
  | .finite _ _ _ => true
  | _ => false

/-- The 64 bits: sign, biased exponent, fraction. -/
def bits : Binary64 → Nat
  | .finite s m e =>
    let sign := if s then signBit else 0
    if m < leadingBit then sign + m
    else sign + (e - leastExponent + 1).toNat * leadingBit + (m - leadingBit)
  | .infinite s => (if s then signBit else 0) + specialExponent
  | .nan => specialExponent + leadingBit / 2

/-- The magnitude of a finite number with `places` digits behind the point, rounded from the exact
value, a tie to the even digit. -/
def toFixed (places : Nat) : Binary64 → String
  | .finite s m e =>
    let (n, d) := magnitude m e
    let scaled := roundHalfEven (n * tenTo places) d
    let whole := toString (scaled / tenTo places)
    let digits := toString (scaled % tenTo places)
    let padded := "".pushn '0' (places - digits.length) ++ digits
    (if s then "-" else "") ++ whole ++ (if places = 0 then "" else "." ++ padded)
  | .infinite s => if s then "-inf" else "inf"
  | .nan => "NaN"

/-- The nearest whole number, a half away from zero, cut off at nothing and at the largest 64-bit
word; what is no number counts as nothing. -/
def toWord : Binary64 → Nat
  | .finite s m e =>
    let (n, d) := magnitude m e
    if s then 0 else min ((2 * n + d) / (2 * d)) wordMax
  | .infinite s => if s then 0 else wordMax
  | .nan => 0

end Binary64

end SerialLink
