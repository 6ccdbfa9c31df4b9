-- Where a setting goes. A key such as `a.b[2]` is a path through tables and
-- lists; a later setting replaces an earlier one at the same place, and tables
-- are merged entry by entry.
import SerialLink.Settings.Value
import SerialLink.Text.Decimal

namespace SerialLink.Settings

/-! ## Paths -/

/-- One step of a path. -/
inductive Step
  | child (name : String)
  /-- An item of a list; a negative number counts from the end. -/
  | item (index : Int)
  deriving DecidableEq

/-- The steps from the whole of the settings to one of them. -/
abbrev Path := List Step

namespace Path

/-- Characters of a name in a path. -/
def isNameChar (c : Char) : Bool := c.isAlphanum || c == '_' || c == '-' || c == ' '

/-- A name that a text begins with, and what is left. -/
def readName (text : List Char) : Option (String × List Char) :=
  let name := text.takeWhile isNameChar
  if name.isEmpty then none else some (String.ofList name, text.dropWhile isNameChar)

/-- A whole number of 64 bits with its sign. -/
def integer? (text : List Char) : Option Int :=
  match text with
  | '-' :: digits =>
    ((Text.Decimal.number? digits).filter (· ≤ integerLimit)).map fun n => -(n : Int)
  | digits => ((Text.Decimal.number? digits).filter (· < integerLimit)).map fun n => (n : Int)

/-- Blanks in a path. -/
def isGap (c : Char) : Bool := c == ' ' || c == '\t'

/-- A text without blanks at its ends. -/
def trimmed (text : List Char) : List Char :=
  ((text.dropWhile isGap).reverse.dropWhile isGap).reverse

/-- The next step of a path, and what is left. -/
def readStep : List Char → Option (Step × List Char)
  | '.' :: rest => (readName rest).map fun (name, rest) => (.child name, rest)
  | '[' :: rest =>
    match rest.dropWhile (· ≠ ']') with
    | ']' :: behind =>
      (integer? (trimmed (rest.takeWhile (· ≠ ']')))).map fun index => (.item index, behind)
    | _ => none
  | _ => none

/-- The steps that a text consists of, at most so many. -/
def readSteps : Nat → List Char → Option Path
  | _, [] => some []
  | 0, _ => none
  | left + 1, text => do
    let (step, rest) ← readStep text
    pure (step :: (← readSteps left rest))

/-- The path that a key means. A key that is no path is a name by itself. -/
def ofKey (key : String) : Path :=
  let steps? : Option Path := do
    let (name, rest) ← readName key.toList
    let steps ← readSteps rest.length rest
    pure (.child name :: steps)
  steps?.getD [.child key]

end Path

/-! ## Setting -/

namespace Value

/-- Changes the entry of a table, which is made if it is not there. -/
def modifyChild (name : String) (f : Value → Value) (parent : Value) : Value :=
  let entries := parent.entries
  .table (putEntry name (f ((valueAt? name entries).getD .nothing)) entries)

/-- Changes an item of a list, which is made as long as need be. -/
def modifyItem (index : Int) (f : Value → Value) (parent : Value) : Value :=
  let items := parent.items
  let place := if 0 ≤ index then index.toNat else items.length - index.natAbs
  let longer := items ++ List.replicate (place + 1 - items.length) .nothing
  .list (longer.modify place f)

mutual

/-- Sets one entry of a table: a table is merged into what is there, anything else replaces it. -/
def assign (parent : Value) (name : String) : Value → Value
  | .table incoming =>
    let entries := parent.entries
    let key := lowered name
    .table (putEntry key (assignAll ((valueAt? key entries).getD (.table [])) incoming) entries)
  | value => .table (putEntry (lowered name) value parent.entries)

/-- Sets entries of a table one after the other. -/
def assignAll (target : Value) : List (String × Value) → Value
  | [] => target
  | (name, value) :: rest => assignAll (assign target name value) rest

end

/-- Sets the value at a path. What is in the way makes room. -/
def put (value : Value) : Path → Value → Value
  | [], root => root
  | [.child name], root => assign root name value
  | [.item index], root => modifyItem index (fun _ => value) root
  | .child name :: rest, root => modifyChild name (put value rest) root
  | .item index :: rest, root => modifyItem index (put value rest) root

/-- Sets all entries of a source. -/
def putAll (root : Value) (source : Entries) : Value :=
  source.foldl (fun root (key, value) => put value (Path.ofKey key) root) root

end Value

/-- The settings of all sources, a later source winning over an earlier one. -/
def layered (sources : List Entries) : Value := sources.foldl Value.putAll (.table [])

end SerialLink.Settings
