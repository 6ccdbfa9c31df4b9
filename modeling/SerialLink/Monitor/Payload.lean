-- Bytes as the monitor reads and shows them: hexadecimal, with blanks anywhere
-- on the way in, in lines of sixteen bytes on the way out.
import SerialLink.Monitor.Error
import SerialLink.Text.Blank

namespace SerialLink.Monitor

/-- What is left of a text without its blank characters. -/
def withoutBlanks (text : String) : List Char := text.toList.filter fun c => !Text.isBlank c

/-- The codes of the characters of a text, of one to four bytes each. -/
def codes (text : List Char) : Bytes := text.flatMap String.utf8EncodeChar

/-- The payload that a text means; blanks do not matter, not even inside a byte. -/
def parsePayload (text : String) : Except MonitorError Bytes :=
  (Text.Hexadecimal.toBytes (codes (withoutBlanks text))).mapError (.invalidPayload text)

/-- Bytes of one line. -/
def lineWidth : Nat := 16

/-- Bytes in rows of `width` bytes, the last one shorter if need be. -/
def rows (width : Nat) (bytes : Bytes) : List Bytes :=
  if width = 0 ∨ bytes = [] then [] else bytes.take width :: rows width (bytes.drop width)
termination_by bytes.length
decreasing_by
  rename_i filled
  have := List.length_pos_iff.2 fun e => filled (.inr e)
  simp only [List.length_drop]
  omega

/-- The lines that show a stretch of data. -/
def hexLines (data : Bytes) : List String :=
  (rows lineWidth data).map fun row => String.ofList (Text.Hexadecimal.ofBytes row)

end SerialLink.Monitor
