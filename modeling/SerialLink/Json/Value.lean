-- JSON values as a document tells them: members keep their order and may tell
-- a name twice, and a number keeps how it was written as far as that matters.

namespace SerialLink.Json

/-- A number. One without fraction and exponent is an integer, but for `-0`, which no integer is. -/
inductive Number
  | integer (n : Int)
  /-- `coefficient * 10 ^ exponent`, or its negative. -/
  | decimal (negative : Bool) (coefficient : Nat) (exponent : Int)
  deriving DecidableEq

/-- The text of a string. It is missing where escapes leave half of a pair of units alone, since
no character is meant then. -/
abbrev Text := Option String

inductive Value
  | null
  | bool (b : Bool)
  | number (n : Number)
  | string (s : Text)
  | array (items : List Value)
  | object (members : List (Text × Value))

namespace Value

/-- A string that means its characters. -/
def text (s : String) : Value := .string (some s)

def natural (n : Nat) : Value := .number (.integer n)

/-- What is there, or null. -/
def optional {α : Type} (f : α → Value) : Option α → Value
  | some a => f a
  | none => .null

/-- An object with these members. -/
def record (members : List (String × Value)) : Value :=
  .object (members.map fun (name, value) => (some name, value))

mutual

/-- How many arrays and objects lie inside each other at most. -/
def depth : Value → Nat
  | .array items => depthOfItems items + 1
  | .object members => depthOfMembers members + 1
  | _ => 0

def depthOfItems : List Value → Nat
  | [] => 0
  | item :: rest => max (depth item) (depthOfItems rest)

def depthOfMembers : List (Text × Value) → Nat
  | [] => 0
  | (_, value) :: rest => max (depth value) (depthOfMembers rest)

end

end Value

end SerialLink.Json
