-- JSON as a kind of document. It is strict: a number is no text, a name must
-- not be told twice, and a list must not go on behind its last field.
import SerialLink.Document.Dialect
import SerialLink.Json.Value

namespace SerialLink.Json

open Document (Dialect Fields)

namespace Value

/-- The members with a text for a name, unless some member has none. -/
def namedMembers? (members : List (Text × Value)) : Option (List (String × Value)) :=
  members.mapM fun (name, value) => name.map fun name => (name, value)

/-- None of these names is told twice. -/
def toldOnce (names : List String) (members : List (String × Value)) : Bool :=
  names.all fun name => (members.filter fun m => m.1 == name).length ≤ 1

/-- The fields of a record: the members of an object, or the items of a list in order. -/
def fields? (names : List String) (cut : Bool) : Value → Option (Fields Value)
  | .object members => (namedMembers? members).filter (toldOnce names)
  | .array items =>
    let complete := items.length = names.length
    if complete ∨ (cut ∧ items.length < names.length) then some (names.zip items) else none
  | _ => none

def isNull : Value → Bool
  | .null => true
  | _ => false

/-- An integer that is not negative. -/
def natural? : Value → Option Nat
  | .number (.integer n) => n.toNat?
  | _ => none

def text? : Value → Option String
  | .string s => s
  | _ => none

def pair? : Value → Option (Value × Value)
  | .array [first, second] => some (first, second)
  | _ => none

def dialect : Dialect Value :=
  { fields := fields?, isNull, natural := natural?, text := text?, pair := pair? }

/-- One of the values in `all` by its name, alone or as the name of a member that holds nothing. -/
def oneOf? {α : Type} (all : List α) (name : α → String) : Value → Option α
  | .string (some s) => all.find? fun a => name a == s
  | .object [(some s, .null)] => all.find? fun a => name a == s
  | _ => none

end Value

end SerialLink.Json
