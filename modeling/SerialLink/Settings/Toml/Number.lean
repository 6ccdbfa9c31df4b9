-- Numbers of a TOML document: integers of 64 bits to four bases, and binary64
-- numbers.
import SerialLink.Settings.Toml.Text
import SerialLink.Settings.Value
import SerialLink.Text.Decimal

namespace SerialLink.Settings.Toml

/-! ## Digits -/

/-- The value of a digit to a base. -/
def digitOf? (base : Nat) (c : Char) : Option Nat :=
  (Text.Hexadecimal.digitValue? c).filter (· < base)

/-- Digits to a base; an underscore may stand between two of them. -/
def moreDigits (base : Nat) : List Char → List Nat × List Char
  | [] => ([], [])
  | '_' :: c :: rest =>
    match digitOf? base c with
    | some d =>
      let (more, rest) := moreDigits base rest
      (d :: more, rest)
    | none => ([], '_' :: c :: rest)
  | c :: rest =>
    match digitOf? base c with
    | some d =>
      let (more, rest) := moreDigits base rest
      (d :: more, rest)
    | none => ([], c :: rest)

/-- Reads at least one digit. -/
def readDigits (base : Nat) : Reads (List Nat)
  | c :: rest =>
    (digitOf? base c).map fun d =>
      let (more, rest) := moreDigits base rest
      (d :: more, rest)
  | [] => none

/-- The number with these digits. -/
def ofDigits (base : Nat) (digits : List Nat) : Nat := digits.foldl (fun n d => base * n + d) 0

/-- Reads a sign, if there is one: whether it says that the number is negative. -/
def readSign : List Char → Bool × List Char
  | '+' :: rest => (false, rest)
  | '-' :: rest => (true, rest)
  | text => (false, text)

/-- Reads decimal digits without a zero in front of others. -/
def readWhole : Reads (List Nat)
  | '0' :: rest => some ([0], rest)
  | text => readDigits 10 text

/-! ## Numbers -/

/-- An integer, if it fits 64 bits. -/
def integer? (negative : Bool) (n : Nat) : Option Value :=
  if negative then if n ≤ integerLimit then some (.integer (-n)) else none
  else if n < integerLimit then some (.integer n) else none

/-- A binary64 number; one that is too large is refused. -/
def real? (negative : Bool) (coefficient : Nat) (exponent : Int) : Option Value :=
  match Binary64.ofDecimal negative coefficient exponent with
  | .infinite false => none
  | x => some (.real x)

def readExponent : Reads Int
  | c :: rest =>
    if c = 'e' ∨ c = 'E' then
      let (negative, rest) := readSign rest
      (readDigits 10 rest).map fun (digits, rest) =>
        let n : Int := ofDigits 10 digits
        (if negative then -n else n, rest)
    else none
  | [] => none

/-- Reads the digits behind a point. -/
def readPlaces : Reads (List Nat)
  | '.' :: rest => readDigits 10 rest
  | _ => none

/-- Reads a decimal number: an integer, unless it has a fraction or an exponent. -/
def readDecimal : Reads Value := fun text => do
  let (negative, rest) := readSign text
  let (whole, rest) ← readWhole rest
  match readPlaces rest with
  | some (places, rest) =>
    let (exponent, rest) := (readExponent rest).getD (0, rest)
    let value ← real? negative (ofDigits 10 (whole ++ places)) (exponent - places.length)
    pure (value, rest)
  | none =>
    match readExponent rest with
    | some (exponent, rest) =>
      let value ← real? negative (ofDigits 10 whole) exponent
      pure (value, rest)
    | none =>
      let value ← integer? negative (ofDigits 10 whole)
      pure (value, rest)

/-- Reads an integer to another base. -/
def readBased (base : Nat) : Reads Value := fun text => do
  let (digits, rest) ← readDigits base text
  let value ← integer? false (ofDigits base digits)
  pure (value, rest)

/-- Reads a word for what is no finite number. -/
def readSpecial : Reads Value := fun text =>
  match readSign text with
  | (negative, 'i' :: 'n' :: 'f' :: rest) => some (.real (.infinite negative), rest)
  | (_, 'n' :: 'a' :: 'n' :: rest) => some (.real .nan, rest)
  | _ => none

def readNumber : Reads Value
  | '0' :: 'x' :: rest => readBased 16 rest
  | '0' :: 'o' :: rest => readBased 8 rest
  | '0' :: 'b' :: rest => readBased 2 rest
  | text => (readSpecial text).or (readDecimal text)

end SerialLink.Settings.Toml
