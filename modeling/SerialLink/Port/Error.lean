-- What can go wrong with a port, its host and the sources of its events.

namespace SerialLink

/-- An error of a port, a host or an event source. The text is what the platform told. -/
inductive PortError
  /-- The port could not be opened. -/
  | openFailed (text : String)
  /-- The port is closed; this is also how a waiting read ends. -/
  | closed
  | io (text : String)
  /-- A write was not done within so many milliseconds. -/
  | timeout (milliseconds : Nat)
  | invalidParameters (text : String)
  | permissionRequest (text : String)
  | subscription (text : String)
  | enumeration (text : String)
  deriving DecidableEq

namespace PortError

def message : PortError → String
  | .openFailed text => "Failed to open serial port: " ++ text
  | .closed => "Serial port is closed"
  | .io text => "Serial I/O error: " ++ text
  | .timeout milliseconds => s!"Write timed out after {milliseconds}ms"
  | .invalidParameters text => "Unsupported line parameters: " ++ text
  | .permissionRequest text => "Permission request failed: " ++ text
  | .subscription text => "Event subscription error: " ++ text
  | .enumeration text => "USB enumeration failed: " ++ text

/-- What the platform says went wrong. -/
inductive Cause
  | noDevice
  | invalidInput
  | unknown
  /-- A failed read, write or system call of whatever kind. -/
  | io
  deriving DecidableEq

/-- A failure that the platform reports with a text: a device that is gone counts as a closed
port, refused input as unsupported parameters, everything else as failed input or output. -/
def ofCause (cause : Cause) (text : String) : PortError :=
  match cause with
  | .noDevice => .closed
  | .invalidInput => .invalidParameters text
  | .unknown | .io => .io text

end PortError

end SerialLink
