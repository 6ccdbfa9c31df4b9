-- Log levels, by name in any letter case or by number.
import SerialLink.Monitor.Error
import SerialLink.Text.Decimal

namespace SerialLink

/-- How much is logged; each level logs what those before it do. -/
inductive LogLevel
  | error | warn | info | debug | trace
  deriving DecidableEq

namespace LogLevel

def name : LogLevel → String
  | .error => "error"
  | .warn => "warn"
  | .info => "info"
  | .debug => "debug"
  | .trace => "trace"

def number : LogLevel → Nat
  | .error => 1
  | .warn => 2
  | .info => 3
  | .debug => 4
  | .trace => 5

def all : List LogLevel := [.error, .warn, .info, .debug, .trace]

/-- The level that a text names or counts. -/
def parse? (text : String) : Option LogLevel :=
  match Text.Decimal.word? text.toList with
  | some n => all.find? fun level => level.number == n
  | none => all.find? fun level => level.name.toList == text.toList.map Char.toLower

/-- The level that a text means, or why it means none. -/
def parse (text : String) : Except MonitorError LogLevel :=
  match parse? text with
  | some level => .ok level
  | none => .error (.invalidLogLevel text)

end LogLevel

end SerialLink
