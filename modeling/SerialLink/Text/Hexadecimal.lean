-- Hexadecimal text: two lower-case digits a byte on the way out, digits of
-- either case on the way in.
import SerialLink.Bytes

namespace SerialLink.Text.Hexadecimal

/-! ## Digits -/

/-- The lower-case digit of a number below 16. -/
def digit (n : Nat) : Char :=
  if n < 10 then Char.ofNat ('0'.toNat + n) else Char.ofNat ('a'.toNat + (n - 10))

/-- The value of a digit of either case. -/
def digitValue? (c : Char) : Option Nat :=
  if '0' ≤ c ∧ c ≤ '9' then some (c.toNat - '0'.toNat)
  else if 'a' ≤ c ∧ c ≤ 'f' then some (c.toNat - 'a'.toNat + 10)
  else if 'A' ≤ c ∧ c ≤ 'F' then some (c.toNat - 'A'.toNat + 10)
  else none

/-- A number in hexadecimal, without leading zeros. -/
def ofNat (n : Nat) : List Char := Nat.toDigits 16 n

/-- A number in hexadecimal with at least `width` digits. -/
def padded (width n : Nat) : List Char :=
  let digits := ofNat n
  List.replicate (width - digits.length) '0' ++ digits

/-! ## Bytes -/

def ofByte (b : UInt8) : List Char := [digit (b.toNat / 16), digit (b.toNat % 16)]

/-- The digits of all bytes in a row. -/
def ofBytes (bs : Bytes) : List Char := bs.flatMap ofByte

/-- The value of a byte that is the code of a digit. -/
def byteValue? (b : UInt8) : Option Nat := digitValue? (Char.ofNat b.toNat)

/-- Why a row of character codes is not the hexadecimal form of any bytes. -/
inductive ReadError
  | oddLength
  /-- The first code that is no digit, and its place. -/
  | badDigit (code : UInt8) (position : Nat)
  deriving DecidableEq

/-- Reads pairs of digits; `position` is the place of the first code. -/
def readPairs : Nat → Bytes → Except ReadError Bytes
  | position, high :: low :: rest =>
    match byteValue? high, byteValue? low with
    | none, _ => .error (.badDigit high position)
    | some _, none => .error (.badDigit low (position + 1))
    | some h, some l =>
      match readPairs (position + 2) rest with
      | .ok bytes => .ok (UInt8.ofNat (16 * h + l) :: bytes)
      | .error e => .error e
  | _, _ => .ok []

/-- The bytes that a row of character codes stands for. An odd number of codes is told before any
bad digit. -/
def toBytes (codes : Bytes) : Except ReadError Bytes :=
  if codes.length % 2 = 1 then .error .oddLength else readPairs 0 codes

end SerialLink.Text.Hexadecimal
