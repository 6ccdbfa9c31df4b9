-- Documents that tell settings. Their kinds differ in what they take for a
-- number, a text or a record; how records are made up of fields is the same.

namespace SerialLink.Document

/-- The fields that a document tells of a record, each at most once. -/
abbrev Fields (V : Type) := List (String × V)

/-- How the values of one kind of document are read. -/
structure Dialect (V : Type) where
  /-- The fields of a record with these field names. A record may also be told as the list of its
  fields in order; `cut` says whether that list may end early. -/
  fields : (names : List String) → (cut : Bool) → V → Option (Fields V)
  /-- The value says that there is nothing. -/
  isNull : V → Bool
  /-- A whole number, not negative. -/
  natural : V → Option Nat
  text : V → Option String
  /-- A list of two. -/
  pair : V → Option (V × V)

/-- A whole number up to a limit. -/
def Dialect.upTo {V : Type} (d : Dialect V) (limit : Nat) (value : V) : Option Nat :=
  (d.natural value).filter (· ≤ limit)

def Dialect.optional {V α : Type} (d : Dialect V) (read : V → Option α) (value : V) :
    Option (Option α) :=
  if d.isNull value then some none else (read value).map some

namespace Fields

variable {V α : Type}

/-- The value of a field, if it is told. -/
def get? (fields : Fields V) (name : String) : Option V :=
  (fields.find? fun f => f.1 == name).map (·.2)

/-- A field that has to be told. -/
def required (fields : Fields V) (name : String) (read : V → Option α) : Option α :=
  (fields.get? name).bind read

/-- A field with a value of its own where it is not told. -/
def withDefault (fields : Fields V) (name : String) (standard : α) (read : V → Option α) :
    Option α :=
  match fields.get? name with
  | some value => read value
  | none => some standard

end Fields

end SerialLink.Document
