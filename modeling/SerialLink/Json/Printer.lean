-- JSON values as text: compact, with nothing between the tokens, or laid out
-- over lines with two blanks a level.
import SerialLink.Json.Value
import SerialLink.Text.Decimal
import SerialLink.Text.Hexadecimal

namespace SerialLink.Json

/-! ## Scalars -/

/-- A character inside a string: quote, backslash and control characters are escaped. -/
def escapedChar (c : Char) : List Char :=
  match c with
  | '"' => ['\\', '"']
  | '\\' => ['\\', '\\']
  | '\x08' => ['\\', 'b']
  | '\x0c' => ['\\', 'f']
  | '\n' => ['\\', 'n']
  | '\r' => ['\\', 'r']
  | '\t' => ['\\', 't']
  | c => if c.toNat < 0x20 then '\\' :: 'u' :: Text.Hexadecimal.padded 4 c.toNat else [c]

/-- A string in quotes; one without characters is written as half a pair. -/
def Text.written : Text → List Char
  | some s => '"' :: (s.toList.flatMap escapedChar ++ ['"'])
  | none => ['"', '\\', 'u', 'd', '8', '0', '0', '"']

/-- A whole number with its sign. -/
def signed (n : Int) : List Char :=
  if n < 0 then '-' :: Text.Decimal.ofNat n.natAbs else Text.Decimal.ofNat n.natAbs

/-- A number; whatever is no integer is written with an exponent. -/
def Number.written : Number → List Char
  | .integer n => signed n
  | .decimal negative coefficient exponent =>
    (if negative then ['-'] else []) ++ Text.Decimal.ofNat coefficient ++ 'e' :: signed exponent

/-- A value that is neither an array nor an object with something inside. -/
def Value.scalar : Value → List Char
  | .null => ['n', 'u', 'l', 'l']
  | .bool true => ['t', 'r', 'u', 'e']
  | .bool false => ['f', 'a', 'l', 's', 'e']
  | .number n => n.written
  | .string s => s.written
  | .array _ => ['[', ']']
  | .object _ => ['\x7b', '\x7d']

/-! ## The compact form -/

namespace Value

mutual

/-- The value with nothing between its tokens. -/
def compact : Value → List Char
  | .array items => '[' :: (compactItems items ++ [']'])
  | .object members => '\x7b' :: (compactMembers members ++ ['\x7d'])
  | value => value.scalar

/-- Items with commas between them. -/
def compactItems : List Value → List Char
  | [] => []
  | [item] => compact item
  | item :: rest => compact item ++ ',' :: compactItems rest

/-- Members with commas between them. -/
def compactMembers : List (Text × Value) → List Char
  | [] => []
  | [(name, value)] => name.written ++ ':' :: compact value
  | (name, value) :: rest => name.written ++ ':' :: (compact value ++ ',' :: compactMembers rest)

end

def toText (value : Value) : String := String.ofList value.compact

/-! ## The form over lines -/

/-- A new line at a level. -/
def lineAt (level : Nat) : List Char := '\n' :: List.replicate (2 * level) ' '

mutual

/-- The value with each item and member on a line of its own. -/
def laidOut (level : Nat) : Value → List Char
  | .array (item :: rest) =>
    '[' :: (itemsLaidOut (level + 1) (item :: rest) ++ lineAt level ++ [']'])
  | .object (member :: rest) =>
    '\x7b' :: (membersLaidOut (level + 1) (member :: rest) ++ lineAt level ++ ['\x7d'])
  | value => value.scalar

/-- Items on lines of a level. -/
def itemsLaidOut (level : Nat) : List Value → List Char
  | [] => []
  | [item] => lineAt level ++ laidOut level item
  | item :: rest => lineAt level ++ laidOut level item ++ ',' :: itemsLaidOut level rest

/-- Members on lines of a level. -/
def membersLaidOut (level : Nat) : List (Text × Value) → List Char
  | [] => []
  | [(name, value)] => lineAt level ++ name.written ++ ':' :: ' ' :: laidOut level value
  | (name, value) :: rest =>
    lineAt level ++ name.written ++ ':' :: ' ' :: (laidOut level value ++ ',' ::
      membersLaidOut level rest)

end

/-- The text over lines. -/
def toLines (value : Value) : String := String.ofList (value.laidOut 0)

end Value

end SerialLink.Json
