-- A character as a message shows it: between single quotes, with a backslash
-- before what would be misread and a code for what cannot be printed.
import SerialLink.Text.Hexadecimal

namespace SerialLink.Text

/-- Characters up to U+00FF that have no printed form of their own. -/
def isUnprintable (c : Char) : Bool :=
  let n := c.toNat
  decide (n < 0x20 ∨ (0x7F ≤ n ∧ n ≤ 0xA0) ∨ n = 0xAD)

/-- The character between the quotes. -/
def escaped (c : Char) : String :=
  match c with
  | '\x00' => "\\0"
  | '\t' => "\\t"
  | '\n' => "\\n"
  | '\r' => "\\r"
  | '\'' => "\\'"
  | '\\' => "\\\\"
  | c =>
    if isUnprintable c then
      "\\u\x7b" ++ String.ofList (Hexadecimal.ofNat c.toNat) ++ "\x7d"
    else c.toString

/-- A character up to U+00FF in single quotes. -/
def quoted (c : Char) : String := "'" ++ escaped c ++ "'"

end SerialLink.Text
