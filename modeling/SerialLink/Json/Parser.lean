-- From tokens to a JSON value. What is open around the place that has been
-- reached is a list, so one pass over the tokens reads any depth.
import SerialLink.Json.Token

namespace SerialLink.Json

/-- An array or object that is still open, with what came before, the last one first. -/
inductive Frame
  | items (before : List Value)
  /-- The value of a member with this name is under way. -/
  | members (before : List (Text × Value)) (name : Text)

/-- What may come next. -/
inductive Stage
  /-- A value; or the end of an array that has no items yet. -/
  | value (mayClose : Bool)
  /-- A member's name; or the end of an object that has no members yet. -/
  | name (mayClose : Bool) (before : List (Text × Value))
  /-- The colon behind a name. -/
  | colon (before : List (Text × Value)) (name : Text)
  /-- What follows a value. -/
  | after (value : Value)

/-- The value that a token is by itself. -/
def Token.scalar? : Token → Option Value
  | .null => some .null
  | .bool b => some (.bool b)
  | .number n => some (.number n)
  | .string s => some (.string s)
  | _ => none

def parseStep : Stage → List Frame → Token → Option (Stage × List Frame)
  | .value _, around, .openBracket => some (.value true, .items [] :: around)
  | .value _, around, .openBrace => some (.name true [], around)
  | .value true, .items before :: around, .closeBracket =>
    some (.after (.array before.reverse), around)
  | .value _, around, token => token.scalar?.map fun value => (.after value, around)
  | .name _ before, around, .string s => some (.colon before s, around)
  | .name true before, around, .closeBrace => some (.after (.object before.reverse), around)
  | .colon before name, around, .colon => some (.value false, .members before name :: around)
  | .after value, .items before :: around, .comma =>
    some (.value false, .items (value :: before) :: around)
  | .after value, .items before :: around, .closeBracket =>
    some (.after (.array (value :: before).reverse), around)
  | .after value, .members before name :: around, .comma =>
    some (.name false ((name, value) :: before), around)
  | .after value, .members before name :: around, .closeBrace =>
    some (.after (.object ((name, value) :: before).reverse), around)
  | _, _, _ => none

/-- The value that the rest of the tokens completes. -/
def parseFrom : Stage → List Frame → List Token → Option Value
  | .after value, [], [] => some value
  | _, _, [] => none
  | stage, around, token :: rest =>
    match parseStep stage around token with
    | none => none
    | some (stage, around) => parseFrom stage around rest

/-- The value that a whole text is. -/
def Value.parse? (text : String) : Option Value :=
  (scan text.toList).bind (parseFrom (.value false) [])

end SerialLink.Json
