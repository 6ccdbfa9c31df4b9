-- Strings and keys of a TOML document. Each reader takes what a text begins
-- with and hands back what is left.
import SerialLink.Text.Hexadecimal

namespace SerialLink.Settings.Toml

/-- Takes a value off the front of a text. -/
abbrev Reads (α : Type) := List Char → Option (α × List Char)

/-! ## Characters -/

/-- Blanks within a line. -/
def isGap (c : Char) : Bool := c == ' ' || c == '\t'

/-- Characters that may stand for themselves. -/
def isPlain (c : Char) : Bool := c == '\t' || decide (0x20 ≤ c.toNat ∧ c.toNat ≠ 0x7F)

def skipGaps (text : List Char) : List Char := text.dropWhile isGap

/-- What is left behind the end of a line. -/
def behindLineEnd? : List Char → Option (List Char)
  | '\n' :: rest => some rest
  | '\r' :: '\n' :: rest => some rest
  | _ => none

/-! ## Escapes -/

/-- A character by its number in so many hexadecimal digits. -/
def readCode (digits : Nat) : Reads Char := fun text => do
  let values ← (text.take digits).mapM Text.Hexadecimal.digitValue?
  let code := values.foldl (fun n d => 16 * n + d) 0
  if values.length = digits ∧ code.isValidChar then
    pure (Char.ofNat code, text.drop digits)
  else none

/-- The character that is meant behind a backslash. -/
def readEscape : Reads Char
  | 'b' :: rest => some ('\x08', rest)
  | 't' :: rest => some ('\t', rest)
  | 'n' :: rest => some ('\n', rest)
  | 'f' :: rest => some ('\x0c', rest)
  | 'r' :: rest => some ('\r', rest)
  | '"' :: rest => some ('"', rest)
  | '\\' :: rest => some ('\\', rest)
  | 'u' :: rest => readCode 4 rest
  | 'U' :: rest => readCode 8 rest
  | _ => none

/-! ## Strings -/

/-- The end of a string in single quotes of this kind. -/
def closing (quote : Char) : Reads (List Char)
  | c :: rest => if c = quote then some ([], rest) else none
  | [] => none

/-- The end of a string in triple quotes; one or two more quotes in front belong to the string. -/
def tripleClosing (quote : Char) : Reads (List Char) := fun text =>
  let count := min 5 (text.takeWhile (· = quote)).length
  if count < 3 then none else some (List.replicate (count - 3) quote, text.drop count)

/-- A character for itself. -/
def plainPiece : Reads (List Char)
  | c :: rest => if isPlain c then some ([c], rest) else none
  | [] => none

/-- A character for itself or behind a backslash. -/
def escapedPiece : Reads (List Char)
  | '\\' :: rest => (readEscape rest).map fun (c, rest) => ([c], rest)
  | text => plainPiece text

/-- As `plainPiece`, or the end of a line. -/
def plainPieceOrLine : Reads (List Char) := fun text =>
  match behindLineEnd? text with
  | some rest => some (['\n'], rest)
  | none => plainPiece text

/-- Blanks and ends of lines. -/
def isSpace (c : Char) : Bool := isGap c || c == '\n'

/-- Drops blanks and ends of lines, of which there are at most so many. -/
def skipSpaces : Nat → List Char → List Char
  | 0, text => text
  | left + 1, text =>
    let text := skipGaps text
    match behindLineEnd? text with
    | some rest => skipSpaces left rest
    | none => text

/-- As `escapedPiece`, or the end of a line. A backslash at the end of a line joins it to the next
character that is no blank. -/
def escapedPieceOrLine : Reads (List Char)
  | '\\' :: rest =>
    match behindLineEnd? (skipGaps rest) with
    | some rest => some ([], skipSpaces rest.length rest)
    | none => escapedPiece ('\\' :: rest)
  | text => plainPieceOrLine text

/-- Reads pieces, at most so many, up to the end of a string. -/
def readPieces (close piece : Reads (List Char)) : Nat → Reads (List Char)
  | 0, _ => none
  | left + 1, text =>
    match close text with
    | some result => some result
    | none => do
      let (first, rest) ← piece text
      let (more, rest) ← readPieces close piece left rest
      pure (first ++ more, rest)

/-- Reads a string whose opening quotes have been read. -/
def readBody (close piece : Reads (List Char)) : Reads String := fun text =>
  (readPieces close piece (text.length + 1) text).map fun (cs, rest) => (String.ofList cs, rest)

/-- Reads a string on one line. -/
def readLineString : Reads String
  | '"' :: rest => readBody (closing '"') escapedPiece rest
  | '\'' :: rest => readBody (closing '\'') plainPiece rest
  | _ => none

/-- A text without the end of a line at its front. -/
def dropLineEnd (text : List Char) : List Char := (behindLineEnd? text).getD text

/-- Reads a string of any kind. -/
def readString : Reads String
  | '"' :: '"' :: '"' :: rest =>
    readBody (tripleClosing '"') escapedPieceOrLine (dropLineEnd rest)
  | '\'' :: '\'' :: '\'' :: rest =>
    readBody (tripleClosing '\'') plainPieceOrLine (dropLineEnd rest)
  | text => readLineString text

/-! ## Keys -/

/-- Characters of a key without quotes. -/
def isBare (c : Char) : Bool := c.isAlphanum || c == '_' || c == '-'

/-- Reads a key without points. -/
def readSimpleKey : Reads String := fun text =>
  match text with
  | '"' :: _ | '\'' :: _ => readLineString text
  | text =>
    let key := text.takeWhile isBare
    if key.isEmpty then none else some (String.ofList key, text.dropWhile isBare)

/-- Reads keys with points between them, at most so many. -/
def readKeys : Nat → Reads (List String)
  | 0, _ => none
  | left + 1, text => do
    let (key, rest) ← readSimpleKey (skipGaps text)
    match skipGaps rest with
    | '.' :: rest => do
      let (more, rest) ← readKeys left rest
      pure (key :: more, rest)
    | rest => pure ([key], rest)

/-- Reads a key: the names on the way, and the last one. -/
def readKey : Reads (List String × String) := fun text => do
  let (keys, rest) ← readKeys (text.length + 1) text
  pure ((keys.dropLast, keys.getLastD ""), rest)

end SerialLink.Settings.Toml
