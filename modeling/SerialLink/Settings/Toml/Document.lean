-- TOML documents: values, and the lines that tell tables.
import SerialLink.Settings.Toml.Moment
import SerialLink.Settings.Toml.Number
import SerialLink.Settings.Toml.Tree

namespace SerialLink.Settings.Toml

/-! ## Comments -/

/-- Characters of a comment. -/
def isCommentChar (c : Char) : Bool := c == '\t' || decide (0x20 ≤ c.toNat)

/-- What is left behind a comment, if there is one, and the end of its line or of the text. -/
def readLineEnd (text : List Char) : Option (List Char) :=
  let text := skipGaps text
  let text := match text with
    | '#' :: rest => rest.dropWhile isCommentChar
    | text => text
  match text with
  | [] => some []
  | text => behindLineEnd? text

/-- Drops blanks, comments and ends of lines, of which there are at most so many. What is no
comment is left standing. -/
def skipLines : Nat → List Char → List Char
  | 0, text => text
  | left + 1, text =>
    let text := skipGaps text
    match text with
    | [] => []
    | c :: _ =>
      if c = '#' ∨ c = '\n' ∨ c = '\r' then
        match readLineEnd text with
        | some rest => skipLines left rest
        | none => text
      else text

/-! ## Values -/

/-- Most lists and tables that may lie inside each other. -/
def greatestNesting : Nat := 79

/-- The table that pairs of keys and values make up. -/
def tableOf (pairs : List ((List String × String) × Value)) : Option Value := do
  let nodes ← pairs.foldlM (fun nodes ((path, key), value) => Nodes.add value key path nodes) []
  pure (.table (Node.entriesOf nodes))

mutual

/-- Reads a value inside of `depth` others, in at most so many steps. -/
def readValue : (left depth : Nat) → Reads Value
  | 0, _, _ => none
  | left + 1, depth, text =>
    match text with
    | '"' :: _ | '\'' :: _ => (readString text).map fun (s, rest) => (.text s, rest)
    | 't' :: 'r' :: 'u' :: 'e' :: rest => some (.bool true, rest)
    | 'f' :: 'a' :: 'l' :: 's' :: 'e' :: rest => some (.bool false, rest)
    | '[' :: rest =>
      if depth = greatestNesting then none
      else (readItems left (depth + 1) (skipLines rest.length rest)).map fun (items, rest) =>
        (.list items, rest)
    | '\x7b' :: rest =>
      if depth = greatestNesting then none
      else
        match skipGaps rest with
        | '\x7d' :: rest => some (.table [], rest)
        | rest => do
          let (pairs, rest) ← readPairs left (depth + 1) rest
          pure (← tableOf pairs, rest)
    | text =>
      match readMoment text with
      | some (moment, rest) => some (.text moment, rest)
      | none => readNumber text

/-- Reads items of a list up to its end; a comma may stand behind the last one. -/
def readItems : (left depth : Nat) → Reads (List Value)
  | 0, _, _ => none
  | left + 1, depth, text =>
    match text with
    | ']' :: rest => some ([], rest)
    | text => do
      let (item, rest) ← readValue left depth text
      match skipLines rest.length rest with
      | ',' :: rest => do
        let (more, rest) ← readItems left depth (skipLines rest.length rest)
        pure (item :: more, rest)
      | ']' :: rest => pure ([item], rest)
      | _ => none

/-- Reads pairs of keys and values up to the end of a table; all stand on one line, and no comma
stands behind the last one. -/
def readPairs : (left depth : Nat) → Reads (List ((List String × String) × Value))
  | 0, _, _ => none
  | left + 1, depth, text => do
    let (key, rest) ← readKey text
    let (_, rest) ← readMark '=' rest
    let (value, rest) ← readValue left depth (skipGaps rest)
    match skipGaps rest with
    | ',' :: rest => do
      let (more, rest) ← readPairs left depth rest
      pure ((key, value) :: more, rest)
    | '\x7d' :: rest => pure ([(key, value)], rest)
    | _ => none

end

/-! ## Lines -/

/-- What has been read: all tables, and the way to the one that keys go to. -/
structure Progress where
  nodes : Nodes := []
  current : List String := []

/-- Reads a header of one table. -/
def Progress.readHeader (p : Progress) : Reads Progress := fun text => do
  let ((path, key), rest) ← readKey text
  let (_, rest) ← readMark ']' rest
  let nodes ← Nodes.openTable path key p.nodes
  pure ({ nodes, current := path ++ [key] }, rest)

/-- Reads a header of one more table of a list. -/
def Progress.readItemHeader (p : Progress) : Reads Progress := fun text => do
  let ((path, key), rest) ← readKey text
  let (_, rest) ← readMark ']' rest
  let (_, rest) ← readMark ']' rest
  let nodes ← Nodes.openItem path key p.nodes
  pure ({ nodes, current := path ++ [key] }, rest)

def Progress.readPair (p : Progress) : Reads Progress := fun text => do
  let ((path, key), rest) ← readKey text
  let (_, rest) ← readMark '=' rest
  let rest := skipGaps rest
  let (value, rest) ← readValue (rest.length + 1) 0 rest
  let nodes ← Nodes.within (Nodes.add value key path) p.current p.nodes
  pure ({ p with nodes }, rest)

/-- Reads what a line tells. -/
def Progress.readLine (p : Progress) : Reads Progress
  | '[' :: '[' :: rest => p.readItemHeader rest
  | '[' :: rest => p.readHeader rest
  | text => p.readPair text

/-- Reads lines up to the end of the text, at most so many. -/
def Progress.readLines : Nat → Progress → List Char → Option Progress
  | 0, _, _ => none
  | left + 1, p, text =>
    match skipLines (text.length + 1) text with
    | [] => some p
    | text => do
      let (p, rest) ← p.readLine text
      readLines left p (← readLineEnd rest)

/-- The settings of a document. A mark of the byte order in front does not count. -/
def parse? (document : String) : Option Entries := do
  let text := match document.toList with
    | '\uFEFF' :: rest => rest
    | text => text
  let p ← Progress.readLines (text.length + 1) {} text
  pure (Node.entriesOf p.nodes)

end SerialLink.Settings.Toml
