-- Dates and times of a TOML document. As settings they are texts.
import SerialLink.Settings.Toml.Text
import SerialLink.Text.Decimal

namespace SerialLink.Settings.Toml

/-- Reads exactly so many digits. -/
def readFixed (digits : Nat) : Reads Nat := fun text => do
  let values ← (text.take digits).mapM Text.Decimal.digitValue?
  if values.length = digits then pure (Text.Decimal.continued 0 values, text.drop digits) else none

/-- As `readFixed`, for a number between two bounds. -/
def readBetween (digits least most : Nat) : Reads Nat := fun text =>
  (readFixed digits text).filter fun (n, _) => least ≤ n && n ≤ most

/-- Reads one character. -/
def readMark (mark : Char) : Reads Unit
  | c :: rest => if c = mark then some ((), rest) else none
  | [] => none

/-- A number with at least so many digits. -/
def withZeros (digits n : Nat) : String :=
  let text := toString n
  "".pushn '0' (digits - text.length) ++ text

/-! ## Dates -/

/-- Days of a month. -/
def daysOf (year month : Nat) : Nat :=
  if month = 2 then
    if year % 4 = 0 ∧ (year % 100 ≠ 0 ∨ year % 400 = 0) then 29 else 28
  else if [4, 6, 9, 11].contains month then 30
  else 31

/-- Reads a date of the calendar. -/
def readDate : Reads String := fun text => do
  let (year, rest) ← readFixed 4 text
  let (_, rest) ← readMark '-' rest
  let (month, rest) ← readBetween 2 1 12 rest
  let (_, rest) ← readMark '-' rest
  let (day, rest) ← readBetween 2 1 (daysOf year month) rest
  pure (withZeros 4 year ++ "-" ++ withZeros 2 month ++ "-" ++ withZeros 2 day, rest)

/-! ## Times -/

/-- Reads the part of a second, as far as nine digits; nothing is written for none. -/
def readFraction (text : List Char) : String × List Char :=
  match text with
  | '.' :: rest =>
    let digits := rest.takeWhile fun c => (Text.Decimal.digitValue? c).isSome
    if digits.isEmpty then ("", text)
    else
      let kept := ((digits.take 9).reverse.dropWhile (· = '0')).reverse
      (if kept.isEmpty then "" else "." ++ String.ofList kept, rest.drop digits.length)
  | _ => ("", text)

/-- Reads a time of the day; a leap second has the number 60. -/
def readTime : Reads String := fun text => do
  let (hour, rest) ← readBetween 2 0 23 text
  let (_, rest) ← readMark ':' rest
  let (minute, rest) ← readBetween 2 0 59 rest
  let (_, rest) ← readMark ':' rest
  let (second, rest) ← readBetween 2 0 60 rest
  let (fraction, rest) := readFraction rest
  let clock := withZeros 2 hour ++ ":" ++ withZeros 2 minute ++ ":" ++ withZeros 2 second
  pure (clock ++ fraction, rest)

/-- Reads the difference to universal time with its sign; none at all counts as ahead. -/
def readDifference (sign : String) : Reads String := fun text => do
  let (hour, rest) ← readBetween 2 0 23 text
  let (_, rest) ← readMark ':' rest
  let (minute, rest) ← readBetween 2 0 59 rest
  let sign := if hour = 0 ∧ minute = 0 then "+" else sign
  pure (sign ++ withZeros 2 hour ++ ":" ++ withZeros 2 minute, rest)

/-- Reads how a time relates to universal time, if that is told. -/
def readOffset (text : List Char) : String × List Char :=
  match text with
  | 'Z' :: rest | 'z' :: rest => ("Z", rest)
  | '+' :: rest => (readDifference "+" rest).getD ("", text)
  | '-' :: rest => (readDifference "-" rest).getD ("", text)
  | _ => ("", text)

/-- Reads a time behind a date. -/
def readTimeBehind (date : String) (text : List Char) : String × List Char :=
  let time := match text with
    | 'T' :: rest | 't' :: rest | ' ' :: rest => readTime rest
    | _ => none
  match time with
  | some (time, rest) =>
    let (offset, rest) := readOffset rest
    (date ++ "T" ++ time ++ offset, rest)
  | none => (date, text)

/-- Reads a date, a time, or both. -/
def readMoment : Reads String := fun text =>
  match readDate text with
  | some (date, rest) => some (readTimeBehind date rest)
  | none => readTime text

end SerialLink.Settings.Toml
