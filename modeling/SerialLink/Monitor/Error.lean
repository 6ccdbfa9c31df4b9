-- What the monitor cannot do, and how it says so.
import SerialLink.Text.Hexadecimal
import SerialLink.Text.Quoted

namespace SerialLink

/-- What ends the monitor early. -/
inductive MonitorError
  /-- The payload to send is no hexadecimal text. -/
  | invalidPayload (text : String) (cause : Text.Hexadecimal.ReadError)
  | invalidLogLevel (level : String)
  | deviceNotFound (identifier : String)
  /-- No device was asked for and none of those attached has a driver. -/
  | noDevice
  /-- A source of settings is missing or is no document. -/
  | readingConfiguration
  /-- The settings do not make up a configuration. -/
  | parsingConfiguration
  deriving DecidableEq

/-- What is wrong with a text that should be hexadecimal. -/
def Text.Hexadecimal.ReadError.message : Text.Hexadecimal.ReadError → String
  | .oddLength => "Odd number of digits"
  | .badDigit code position =>
    "Invalid character " ++ Text.quoted (Char.ofNat code.toNat) ++ s!" at position {position}"

def MonitorError.message : MonitorError → String
  | .invalidPayload text cause => "invalid hex payload: " ++ text ++ ": " ++ cause.message
  | .invalidLogLevel level => "invalid log level: " ++ level
  | .deviceNotFound identifier => "device " ++ identifier ++ " not found"
  | .noDevice => "no USB serial device with a known driver"
  | .readingConfiguration => "reading configuration"
  | .parsingConfiguration => "parsing configuration"

end SerialLink
