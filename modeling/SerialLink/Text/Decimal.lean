-- Decimal text of whole numbers.
import SerialLink.Bytes

namespace SerialLink.Text.Decimal

def digitValue? (c : Char) : Option Nat :=
  if '0' ≤ c ∧ c ≤ '9' then some (c.toNat - '0'.toNat) else none

def ofNat (n : Nat) : List Char := Nat.toDigits 10 n

/-- The number with these digits, behind the digits of `n`. -/
def continued (n : Nat) (digits : List Nat) : Nat := digits.foldl (fun n d => 10 * n + d) n

/-- The number that a text of digits alone means. -/
def number? (text : List Char) : Option Nat :=
  if text.isEmpty then none else (text.mapM digitValue?).map (continued 0)

/-- A number of 64 bits, with or without a plus sign. -/
def word? (text : List Char) : Option Nat :=
  (number? (match text with
    | '+' :: rest => rest
    | text => text)).filter (· ≤ wordMax)

end SerialLink.Text.Decimal
