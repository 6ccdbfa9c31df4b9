-- The tokens of a JSON text. The scanner goes over the text once, character by
-- character; blanks between tokens leave no trace.
import SerialLink.Json.Value
import SerialLink.Text.Decimal
import SerialLink.Text.Hexadecimal

namespace SerialLink.Json

/-- The words of the JSON grammar. -/
inductive Token
  | openBrace | closeBrace | openBracket | closeBracket | colon | comma
  | null
  | bool (b : Bool)
  | number (n : Number)
  | string (s : Text)
  deriving DecidableEq

/-! ## Strings -/

/-- Joins the codes of a string: a high and a low unit are one character together, and either of
them alone is none. -/
def joinUnits : List Nat → Option (List Char)
  | [] => some []
  | high :: low :: rest =>
    if 0xD800 ≤ high ∧ high < 0xDC00 ∧ 0xDC00 ≤ low ∧ low < 0xE000 then
      (joinUnits rest).map
        (Char.ofNat (0x10000 + (high - 0xD800) * 0x400 + (low - 0xDC00)) :: ·)
    else if 0xD800 ≤ high ∧ high < 0xE000 then none
    else (joinUnits (low :: rest)).map (Char.ofNat high :: ·)
  | [code] => if 0xD800 ≤ code ∧ code < 0xE000 then none else some [Char.ofNat code]

/-- The text of a string with these codes. -/
def textOfUnits (codes : List Nat) : Text := (joinUnits codes).map String.ofList

/-- What stands for itself or a control character behind a backslash. -/
def escapeCode? : Char → Option Nat
  | '"' => some 0x22
  | '\\' => some 0x5C
  | '/' => some 0x2F
  | 'b' => some 0x08
  | 'f' => some 0x0C
  | 'n' => some 0x0A
  | 'r' => some 0x0D
  | 't' => some 0x09
  | _ => none

/-! ## Numbers -/

/-- How far a number has been read. -/
inductive NumberStage
  | sign | zero | whole | point | fraction | mark | markSign | exponent
  deriving DecidableEq

/-- A number under way. -/
structure Numeral where
  stage : NumberStage
  negative : Bool := false
  coefficient : Nat := 0
  /-- Digits behind the point. -/
  places : Nat := 0
  negativeExponent : Bool := false
  exponent : Nat := 0

namespace Numeral

/-- One more digit of the coefficient. -/
def push (n : Numeral) (digit : Nat) : Numeral :=
  { n with coefficient := 10 * n.coefficient + digit }

/-- One more digit of the exponent. -/
def pushExponent (n : Numeral) (digit : Nat) : Numeral :=
  { n with stage := .exponent, exponent := 10 * n.exponent + digit }

/-- The number goes on with `c`, if it can. -/
def extend (n : Numeral) (c : Char) : Option Numeral :=
  match n.stage, Text.Decimal.digitValue? c with
  | .sign, some 0 => some { n with stage := .zero }
  | .sign, some d => some { n.push d with stage := .whole }
  | .whole, some d => some (n.push d)
  | .point, some d | .fraction, some d =>
    some { n.push d with stage := .fraction, places := n.places + 1 }
  | .mark, some d | .markSign, some d | .exponent, some d => some (n.pushExponent d)
  | .zero, none | .whole, none =>
    if c = '.' then some { n with stage := .point }
    else if c = 'e' ∨ c = 'E' then some { n with stage := .mark }
    else none
  | .fraction, none => if c = 'e' ∨ c = 'E' then some { n with stage := .mark } else none
  | .mark, none =>
    if c = '+' then some { n with stage := .markSign }
    else if c = '-' then some { n with stage := .markSign, negativeExponent := true }
    else none
  | _, _ => none

/-- The number that has been read, unless something is still missing. -/
def finish (n : Numeral) : Option Number :=
  let decimal : Number :=
    let exponent : Int := if n.negativeExponent then -n.exponent else n.exponent
    .decimal n.negative n.coefficient (exponent - n.places)
  match n.stage with
  | .zero | .whole =>
    if n.negative then
      if n.coefficient = 0 then some (.decimal true 0 0) else some (.integer (-n.coefficient))
    else some (.integer n.coefficient)
  | .fraction | .exponent => some decimal
  | .sign | .point | .mark | .markSign => none

end Numeral

/-! ## Scanning -/

/-- Where the scanner stands: between tokens or inside one. -/
inductive Scan
  | between
  /-- In a word, these letters of which are still to come. -/
  | word (left : List Char) (token : Token)
  | number (n : Numeral)
  /-- In a string; the codes read so far, the last one first. -/
  | string (codes : List Nat)
  /-- Behind a backslash. -/
  | escape (codes : List Nat)
  /-- In an escape of four digits, so many of which are still to come. -/
  | unit (codes : List Nat) (left value : Nat)

/-- Whitespace between tokens. -/
def isSpace (c : Char) : Bool := c == ' ' || c == '\n' || c == '\t' || c == '\r'

def Scan.start (c : Char) : Option (Scan × Option Token) :=
  if isSpace c then some (.between, none)
  else
    match c with
    | '\x7b' => some (.between, some .openBrace)
    | '\x7d' => some (.between, some .closeBrace)
    | '[' => some (.between, some .openBracket)
    | ']' => some (.between, some .closeBracket)
    | ':' => some (.between, some .colon)
    | ',' => some (.between, some .comma)
    | '"' => some (.string [], none)
    | 'n' => some (.word ['u', 'l', 'l'] .null, none)
    | 't' => some (.word ['r', 'u', 'e'] (.bool true), none)
    | 'f' => some (.word ['a', 'l', 's', 'e'] (.bool false), none)
    | '-' => some (.number { stage := .sign, negative := true }, none)
    | c => ({ stage := .sign : Numeral }.extend c).map fun n => (.number n, none)

/-- Takes in one character; a token may end before it or with it. -/
def Scan.step : Scan → Char → Option (Scan × List Token)
  | .between, c => (Scan.start c).map fun (s, t) => (s, t.toList)
  | .word left token, c =>
    match left with
    | [] => none
    | [last] => if c = last then some (.between, [token]) else none
    | next :: rest => if c = next then some (.word rest token, []) else none
  | .number n, c =>
    match n.extend c with
    | some n => some (.number n, [])
    | none => do
      let number ← n.finish
      let (s, t) ← Scan.start c
      pure (s, .number number :: t.toList)
  | .string codes, c =>
    if c = '"' then some (.between, [.string (textOfUnits codes.reverse)])
    else if c = '\\' then some (.escape codes, [])
    else if c.toNat < 0x20 then none
    else some (.string (c.toNat :: codes), [])
  | .escape codes, c =>
    if c = 'u' then some (.unit codes 4 0, [])
    else (escapeCode? c).map fun code => (.string (code :: codes), [])
  | .unit codes left value, c =>
    (Text.Hexadecimal.digitValue? c).map fun digit =>
      let value := 16 * value + digit
      (if left ≤ 1 then .string (value :: codes) else .unit codes (left - 1) value, [])

/-- The tokens of the rest of a text, behind those read so far, the last one first. -/
def scanFrom : Scan → List Token → List Char → Option (List Token)
  | .between, tokens, [] => some tokens.reverse
  | .number n, tokens, [] => n.finish.map fun number => (.number number :: tokens).reverse
  | _, _, [] => none
  | state, tokens, c :: rest =>
    match state.step c with
    | none => none
    | some (state, more) => scanFrom state (more.reverse ++ tokens) rest

def scan (text : List Char) : Option (List Token) := scanFrom .between [] text

end SerialLink.Json
