-- Settings from environment variables. A variable whose name begins with
-- `SERIAL_MONITOR__` is a setting; two underscores part the names on the way.
import SerialLink.Settings.Value

namespace SerialLink.Settings.Environment

/-- What names of settings begin with, in small letters. -/
def mark : List Char := "serial_monitor__".toList

/-- A name with a point for every two underscores. -/
def pointed : List Char → List Char
  | '_' :: '_' :: rest => '.' :: pointed rest
  | c :: rest => c :: pointed rest
  | [] => []

/-- The key that a variable with this name sets, if it sets one. -/
def key? (name : String) : Option String :=
  let letters := (lowered name).toList
  if mark.isPrefixOf letters then some (String.ofList (pointed (letters.drop mark.length)))
  else none

/-- The settings of an environment, all of them texts. -/
def entries (environment : List (String × String)) : Entries :=
  environment.filterMap fun (name, text) => (key? name).map fun key => (key, .text text)

/-- The name and the text of a variable. -/
def assignment? (line : List Char) : Option (String × String) :=
  match line.dropWhile (· ≠ '=') with
  | '=' :: text => some (String.ofList (line.takeWhile (· ≠ '=')), String.ofList text)
  | _ => none

/-- The variables of a block, in which each of them ends with a zero. -/
def ofBlock (block : String) : List (String × String) :=
  ((block.splitOn "\x00").map String.toList).filterMap assignment?

end SerialLink.Settings.Environment
