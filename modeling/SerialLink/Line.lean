-- Line parameters of a serial port, and their short form such as 115200 8N1.

namespace SerialLink

inductive DataBits
  | five | six | seven | eight
  deriving DecidableEq

inductive StopBits
  | one | onePointFive | two
  deriving DecidableEq

inductive Parity
  | none | odd | even | mark | space
  deriving DecidableEq

/-! ## Names and texts -/

def DataBits.name : DataBits → String
  | .five => "Five"
  | .six => "Six"
  | .seven => "Seven"
  | .eight => "Eight"

def DataBits.all : List DataBits := [.five, .six, .seven, .eight]

def StopBits.name : StopBits → String
  | .one => "One"
  | .onePointFive => "OnePointFive"
  | .two => "Two"

def StopBits.all : List StopBits := [.one, .onePointFive, .two]

def Parity.name : Parity → String
  | .none => "None"
  | .odd => "Odd"
  | .even => "Even"
  | .mark => "Mark"
  | .space => "Space"

def Parity.all : List Parity := [.none, .odd, .even, .mark, .space]

def DataBits.count : DataBits → Nat
  | .five => 5
  | .six => 6
  | .seven => 7
  | .eight => 8

def StopBits.text : StopBits → String
  | .one => "1"
  | .onePointFive => "1.5"
  | .two => "2"

def Parity.letter : Parity → Char
  | .none => 'N'
  | .odd => 'O'
  | .even => 'E'
  | .mark => 'M'
  | .space => 'S'

/-- Speed and framing of a serial line. -/
structure LineParameters where
  baudRate : UInt32
  dataBits : DataBits
  stopBits : StopBits
  parity : Parity
  deriving DecidableEq

namespace LineParameters

/-- Eight data bits, no parity, one stop bit. -/
def eightNOne (baudRate : UInt32) : LineParameters :=
  { baudRate, dataBits := .eight, stopBits := .one, parity := .none }

/-- The short form: speed, data bits, parity letter, stop bits. -/
def text (p : LineParameters) : String :=
  toString p.baudRate.toNat ++ " " ++ toString p.dataBits.count ++ p.parity.letter.toString ++
    p.stopBits.text

end LineParameters

end SerialLink
