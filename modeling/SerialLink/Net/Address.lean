-- Socket addresses: an address of four bytes or eight groups, and a port. Many
-- texts mean the same address; one of them is the canonical one.
import SerialLink.Text.Hexadecimal

namespace SerialLink.Net

/-- The four bytes of a short address. -/
structure FourBytes where
  a : UInt8
  b : UInt8
  c : UInt8
  d : UInt8
  deriving DecidableEq

/-- The eight groups of a long address. -/
structure EightGroups where
  groups : List UInt16
  eight : groups.length = 8
  deriving DecidableEq

/-- An address and a port. A long address may be tied to an interface; zero says that it is not. -/
inductive SocketAddress
  | short (address : FourBytes) (port : UInt16)
  | long (address : EightGroups) (scope : UInt32) (port : UInt16)
  deriving DecidableEq

/-! ## Writing -/

/-- Bytes in decimal with points between them. -/
def FourBytes.text (x : FourBytes) : String :=
  s!"{x.a.toNat}.{x.b.toNat}.{x.c.toNat}.{x.d.toNat}"

/-- Groups in hexadecimal with colons between them. -/
def groupsText (groups : List UInt16) : String :=
  ":".intercalate (groups.map fun g => String.ofList (Text.Hexadecimal.ofNat g.toNat))

/-- A row of zero groups: where it starts and how long it is. -/
structure ZeroRun where
  start : Nat := 0
  length : Nat := 0

/-- The first of the longest rows of zeros, `current` being the row that ends before place `i`. -/
def longestRun (i : Nat) (current longest : ZeroRun) : List UInt16 → ZeroRun
  | [] => longest
  | g :: rest =>
    if g = 0 then
      let current := if current.length = 0 then { start := i, length := 1 }
        else { current with length := current.length + 1 }
      longestRun (i + 1) current (if longest.length < current.length then current else longest) rest
    else longestRun (i + 1) {} longest rest

/-- The two bytes of a group, the high one first. -/
def groupBytes (g : UInt16) : UInt8 × UInt8 :=
  (UInt8.ofNat (g.toNat / 256), UInt8.ofNat (g.toNat % 256))

/-- Groups as text: those that stand for a short address with its four bytes in decimal, others
with the longest row of zeros left out if it is longer than one group. -/
def EightGroups.text (x : EightGroups) : String :=
  match x.groups with
  | [0, 0, 0, 0, 0, 0xFFFF, high, low] =>
    let (a, b) := groupBytes high
    let (c, d) := groupBytes low
    "::ffff:" ++ FourBytes.text { a, b, c, d }
  | groups =>
    let run := longestRun 0 {} {} groups
    if 1 < run.length then
      groupsText (groups.take run.start) ++ "::" ++
        groupsText (groups.drop (run.start + run.length))
    else groupsText groups

def SocketAddress.text : SocketAddress → String
  | .short address port => s!"{address.text}:{port.toNat}"
  | .long address scope port =>
    let tied := if scope = 0 then "" else s!"%{scope.toNat}"
    s!"[{address.text}{tied}]:{port.toNat}"

/-! ## Reading -/

/-- What is left of a text that begins with `c`. -/
def skip (c : Char) : List Char → Option (List Char)
  | [] => none
  | d :: rest => if d = c then some rest else none

/-- The digits of `radix` that a text begins with, as numbers. -/
def leadingDigits (radix : Nat) (text : List Char) : List Nat :=
  (text.map fun c => (Text.Hexadecimal.digitValue? c).filter (· < radix)).takeWhile Option.isSome
    |>.map (·.getD 0)

/-- Which numbers are read: digits of a radix, at most so many of them, up to a limit. -/
structure NumberForm where
  radix : Nat
  most : Option Nat
  /-- A zero may stand in front of other digits. -/
  zeros : Bool
  limit : Nat

def byteForm : NumberForm := { radix := 10, most := some 3, zeros := false, limit := 255 }

def groupForm : NumberForm := { radix := 16, most := some 4, zeros := true, limit := 65535 }

def portForm : NumberForm := { radix := 10, most := none, zeros := true, limit := 65535 }

/-- The number of an interface in decimal. -/
def scopeForm : NumberForm := { radix := 10, most := none, zeros := true, limit := 0xFFFFFFFF }

/-- Reads a number as long as digits go on. -/
def readNumber (form : NumberForm) (text : List Char) : Option (Nat × List Char) :=
  let digits := leadingDigits form.radix text
  let value := digits.foldl (fun n d => form.radix * n + d) 0
  if digits.isEmpty || form.most.any (· < digits.length) ||
      (!form.zeros && digits.head? == some 0 && 1 < digits.length) || form.limit < value then none
  else some (value, text.drop digits.length)

/-- Reads four bytes with points between them. -/
def readFourBytes (text : List Char) : Option (FourBytes × List Char) := do
  let (a, text) ← readNumber byteForm text
  let (b, text) ← readNumber byteForm (← skip '.' text)
  let (c, text) ← readNumber byteForm (← skip '.' text)
  let (d, text) ← readNumber byteForm (← skip '.' text)
  pure ({ a := UInt8.ofNat a, b := UInt8.ofNat b, c := UInt8.ofNat c, d := UInt8.ofNat d }, text)

/-- The group of two bytes. -/
def groupOf (high low : UInt8) : UInt16 := UInt16.ofNat (256 * high.toNat + low.toNat)

/-- Reads up to so many groups with colons between them, as long as they go on. Four bytes in
decimal stand for the last two; whether they do is told. -/
def readGroups (first : Bool) : Nat → List Char → List UInt16 × Bool × List Char
  | 0, text => ([], false, text)
  | left + 1, text =>
    match if first then some text else skip ':' text with
    | none => ([], false, text)
    | some body =>
      match if left = 0 then none else readFourBytes body with
      | some (x, rest) => ([groupOf x.a x.b, groupOf x.c x.d], true, rest)
      | none =>
        match readNumber groupForm body with
        | none => ([], false, text)
        | some (g, rest) =>
          let (more, bytes, rest) := readGroups false left rest
          (UInt16.ofNat g :: more, bytes, rest)

/-- These groups, if there are eight of them. -/
def EightGroups.ofList? (groups : List UInt16) : Option EightGroups :=
  if eight : groups.length = 8 then some { groups, eight } else none

/-- Reads eight groups, some of which may be left out as a row of zeros. -/
def readEightGroups (text : List Char) : Option (EightGroups × List Char) := do
  let (front, bytes, rest) := readGroups true 8 text
  if front.length = 8 then
    (EightGroups.ofList? front).map fun x => (x, rest)
  else if bytes then none
  else
    let rest ← skip ':' (← skip ':' rest)
    let (back, _, rest) := readGroups true (7 - front.length) rest
    let zeros := List.replicate (8 - front.length - back.length) 0
    (EightGroups.ofList? (front ++ zeros ++ back)).map fun x => (x, rest)

def readPort (text : List Char) : Option (UInt16 × List Char) := do
  let (port, rest) ← readNumber portForm (← skip ':' text)
  pure (UInt16.ofNat port, rest)

/-- Reads the number of an interface, if one is told; a mark without a number is left standing. -/
def readScope (text : List Char) : UInt32 × List Char :=
  match (skip '%' text).bind (readNumber scopeForm) with
  | some (scope, rest) => (UInt32.ofNat scope, rest)
  | none => (0, text)

/-- Reads a short address with its port. -/
def readShort (text : List Char) : Option (SocketAddress × List Char) := do
  let (address, text) ← readFourBytes text
  let (port, text) ← readPort text
  pure (.short address port, text)

/-- Reads a long address in brackets with its port. -/
def readLong (text : List Char) : Option (SocketAddress × List Char) := do
  let (address, text) ← readEightGroups (← skip '[' text)
  let (scope, text) := readScope text
  let (port, text) ← readPort (← skip ']' text)
  pure (.long address scope port, text)

/-- The address that a whole text means. -/
def SocketAddress.parse? (text : String) : Option SocketAddress :=
  match (readShort text.toList).or (readLong text.toList) with
  | some (address, []) => some address
  | _ => none

end SerialLink.Net
