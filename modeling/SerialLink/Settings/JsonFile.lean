-- Settings from a file in JSON. Here every string has to mean its characters,
-- and a number beyond 63 bits is a real one.
import SerialLink.Json.Parser
import SerialLink.Number.Scaled
import SerialLink.Settings.Value

namespace SerialLink.Settings

open Json (Number Text)

/-- Most arrays and objects that may lie inside each other. -/
def greatestDepth : Nat := 127

/-- A number as a setting. -/
def Value.ofNumber? : Number → Option Value
  | .integer n =>
    if -(integerLimit : Int) ≤ n ∧ n < integerLimit then some (.integer n)
    else (Binary64.ofScaled (n < 0) n.natAbs 0).map .real
  | .decimal negative coefficient exponent =>
    (Binary64.ofScaled negative coefficient exponent).map .real

mutual

/-- A JSON value as a setting. -/
def Value.ofJson? : Json.Value → Option Value
  | .null => some .nothing
  | .bool b => some (.bool b)
  | .number n => Value.ofNumber? n
  | .string s => s.map .text
  | .array items => (Value.itemsOfJson? items).map .list
  | .object members => (Value.entriesOfJson? [] members).map .table

/-- JSON items as settings. -/
def Value.itemsOfJson? : List Json.Value → Option (List Value)
  | [] => some []
  | item :: rest => do
    let value ← Value.ofJson? item
    pure (value :: (← Value.itemsOfJson? rest))

/-- JSON members as settings; the last of one name counts. -/
def Value.entriesOfJson? (entries : Entries) : List (Text × Json.Value) → Option Entries
  | [] => some entries
  | (name, member) :: rest => do
    let value ← Value.ofJson? member
    Value.entriesOfJson? (putEntry (← name) value entries) rest

end

/-- The settings of a file in JSON, which has to hold an object. -/
def ofJsonFile? (text : String) : Option Entries := do
  let json ← Json.Value.parse? text
  if greatestDepth < json.depth then none
  else
    match ← Value.ofJson? json with
    | .table entries => pure entries
    | _ => none

end SerialLink.Settings
