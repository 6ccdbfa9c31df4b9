-- Settings as they are gathered from files and the environment: values, and
-- tables of values under names in small letters.
import SerialLink.Driver
import SerialLink.Number.Binary64

namespace SerialLink.Settings

/-- A setting, or a table of settings. -/
inductive Value
  | nothing
  | bool (b : Bool)
  | integer (n : Int)
  | real (x : Binary64)
  | text (s : String)
  | list (items : List Value)
  | table (entries : List (String × Value))

/-- The least whole number beyond the integers, which have 64 bits with their sign. -/
def integerLimit : Nat := 0x8000000000000000

/-- Settings by name. -/
abbrev Entries := List (String × Value)

namespace Value

/-- The entries of a table; any other value counts as an empty one. -/
def entries : Value → Entries
  | .table entries => entries
  | _ => []

/-- The items of a list; any other value counts as an empty one. -/
def items : Value → List Value
  | .list items => items
  | _ => []

end Value

/-! ## Names -/

/-- The small form of a letter, as far as it is in ASCII; the sign for a kelvin is such a letter. -/
def loweredChar (c : Char) : Char := if c = '\u212A' then 'k' else c.toLower

/-- A name in small letters. All names that settings are looked up by are in ASCII. -/
def lowered (name : String) : String := String.ofList (name.toList.map loweredChar)

end SerialLink.Settings
