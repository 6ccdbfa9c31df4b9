-- Settings as a kind of document. They are lenient: a text may stand for a
-- number, a number for a text, and a list may be longer than it need be.
import SerialLink.Document.Dialect
import SerialLink.Number.Shortest
import SerialLink.Settings.Value
import SerialLink.Text.Decimal

namespace SerialLink.Settings.Value

open Document (Dialect Fields)

/-- The fields of a record: the entries of a table, or the items of a list in order. -/
def fields? (names : List String) (_cut : Bool) : Value → Option (Fields Value)
  | .table entries => some entries
  | .list items => some (names.zip items)
  | _ => none

def isNothing : Value → Bool
  | .nothing => true
  | _ => false

/-- A number that a text means; words for yes and no count as one and zero. -/
def numberOfText (s : String) : Option Nat :=
  let word := lowered s
  if ["true", "on", "yes"].contains word then some 1
  else if ["false", "off", "no"].contains word then some 0
  else Text.Decimal.word? s.toList

/-- A number that is not negative. -/
def natural? : Value → Option Nat
  | .integer n => n.toNat?
  | .bool b => some b.toNat
  | .real x => some x.toWord
  | .text s => numberOfText s
  | _ => none

/-- A text; numbers and truth values have one. -/
def text? : Value → Option String
  | .text s => some s
  | .bool b => some (if b then "true" else "false")
  | .integer n => some (toString n)
  | .real x => some x.text
  | _ => none

def pair? : Value → Option (Value × Value)
  | .list (first :: second :: _) => some (first, second)
  | _ => none

/-- How settings are read. -/
def dialect : Dialect Value :=
  { fields := fields?, isNull := isNothing, natural := natural?, text := text?, pair := pair? }

end SerialLink.Settings.Value
