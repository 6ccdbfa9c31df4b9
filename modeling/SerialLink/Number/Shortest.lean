-- The shortest decimal digits that still mean a binary64 number: of all
-- decimal numbers that round to it, one with the fewest digits, and of those
-- the nearest.
import SerialLink.Number.Binary64

namespace SerialLink.Binary64

/-! ## Digits -/

/-- A positive finite number and the numbers around it, in units of `2 ^ exponent`. Everything
between `low` and `high` rounds to it, the ends included if `closed`. -/
structure Neighbourhood where
  low : Nat
  value : Nat
  high : Nat
  exponent : Int
  closed : Bool

/-- What rounds to `mantissa * 2 ^ exponent`. The step below a power of two is only half as wide. -/
def neighbourhood (mantissa : Nat) (exponent : Int) : Neighbourhood :=
  let narrow := mantissa = leadingBit ∧ exponent ≠ leastExponent
  { low := 4 * mantissa - (if narrow then 1 else 2)
    value := 4 * mantissa
    high := 4 * mantissa + 2
    exponent := exponent - 2
    closed := mantissa % 2 = 0 }

/-- `n * 2 ^ binary` in units of `10 ^ decimal`, as a quotient of whole numbers. -/
def inDecimalUnits (n : Nat) (binary decimal : Int) : Nat × Nat :=
  (n * twoTo binary.toNat * tenTo (-decimal).toNat, twoTo (-binary).toNat * tenTo decimal.toNat)

/-- The multiple `c` of `10 ^ place` rounds to the number. -/
def Neighbourhood.covers (x : Neighbourhood) (c : Nat) (place : Int) : Bool :=
  let (low, unit) := inDecimalUnits x.low x.exponent place
  let (high, _) := inDecimalUnits x.high x.exponent place
  if x.closed then decide (low ≤ c * unit ∧ c * unit ≤ high)
  else decide (low < c * unit ∧ c * unit < high)

/-- The multiple of `10 ^ place` nearest to the number that rounds to it, if one does; of two that
are as near the larger. -/
def Neighbourhood.onGrid? (x : Neighbourhood) (place : Int) : Option Nat :=
  let (n, d) := inDecimalUnits x.value x.exponent place
  let below := n / d
  let first := if 2 * (n % d) < d then below else below + 1
  let second := if 2 * (n % d) < d then below + 1 else below
  if x.covers first place then some first
  else if x.covers second place then some second
  else none

/-- Looks at finer and finer grids, at most so many, for a multiple that rounds to the number. -/
def Neighbourhood.firstHit (x : Neighbourhood) : Nat → Int → Nat × Int
  | 0, place => ((x.onGrid? place).getD 0, place)
  | grids + 1, place =>
    match x.onGrid? place with
    | some c => (c, place)
    | none => x.firstHit grids (place - 1)

/-- The coefficient and the power of ten of the shortest digits. Seventeen of them are always
enough, and the search starts above the first. -/
def shortest (mantissa : Nat) (exponent : Int) : Nat × Int :=
  if mantissa = 0 then (0, 0)
  else
    let top := ((mantissa.log2 : Int) + 1 + exponent) * 30103 / 100000 + 1
    (neighbourhood mantissa exponent).firstHit 20 top

/-! ## Text -/

/-- Digits with a point `places` digits before their end, and zeros where there are too few. -/
def pointed (digits : String) (places : Nat) : String :=
  let padded := "".pushn '0' (places + 1 - digits.length) ++ digits
  let whole := padded.length - places
  String.ofList (padded.toList.take whole) ++ "." ++ String.ofList (padded.toList.drop whole)

/-- The shortest digits, never with an exponent and without a point behind a whole number. -/
def text : Binary64 → String
  | .finite negative mantissa exponent =>
    let (coefficient, place) := shortest mantissa exponent
    let digits := toString coefficient
    (if negative then "-" else "") ++
      (if 0 ≤ place then (if coefficient = 0 then digits else digits.pushn '0' place.toNat)
      else pointed digits (-place).toNat)
  | .infinite negative => if negative then "-inf" else "inf"
  | .nan => "NaN"

end SerialLink.Binary64
