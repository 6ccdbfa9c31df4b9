-- A connection to one device: its configuration, its errors, and the state
-- that all of its threads share.
import SerialLink.Ring
import SerialLink.Reader
import SerialLink.Driver
import SerialLink.Stream.Checker
import SerialLink.Text.Hexadecimal

namespace SerialLink

/-! ## Configuration -/

structure ConnectionConfig where
  /-- Most bytes that wait for the consumer. -/
  ringCapacity : Nat := Ring.defaultCapacity
  /-- Size of a read; the port's packet size where none is set. -/
  readBufferSize : Option Nat := none
  /-- Milliseconds between two rounds of a drain. -/
  drainInterval : Nat := 5
  /-- Milliseconds that a write may take. -/
  writeTimeout : Nat := 200
  /-- Frames to check for gaps, if any. -/
  diagnostics : Option Stream.Layout := none
  deriving DecidableEq

/-! ## States and errors -/

/-- Life of a connection. -/
inductive ConnectionState
  | disconnected | awaitingPermission | connecting | connected | failed
  deriving DecidableEq

def ConnectionState.name : ConnectionState → String
  | .disconnected => "Disconnected"
  | .awaitingPermission => "AwaitingPermission"
  | .connecting => "Connecting"
  | .connected => "Connected"
  | .failed => "Failed"

def ConnectionState.all : List ConnectionState :=
  [.disconnected, .awaitingPermission, .connecting, .connected, .failed]

/-- An attempt is under way or has come to a connection. -/
def ConnectionState.isLive : ConnectionState → Bool
  | .awaitingPermission | .connecting | .connected => true
  | .disconnected | .failed => false

/-- Why a call failed or an attempt ended. -/
inductive ConnectionError
  | accessDenied
  /-- No table knows the device. -/
  | noDriver (vendorId productId : UInt16)
  | port (e : PortError)
  | reader (e : ReaderError)
  /-- The platform made no drain thread. -/
  | spawn (text : String)
  | notConnected
  /-- The call is not allowed in this state. -/
  | invalidState (state : ConnectionState)
  deriving DecidableEq

/-- Four upper-case hexadecimal digits. -/
def idText (id : UInt16) : String :=
  String.ofList ((Text.Hexadecimal.padded 4 id.toNat).map Char.toUpper)

def ConnectionError.message : ConnectionError → String
  | .accessDenied => "Access to the device was denied"
  | .noDriver vendorId productId =>
    "No driver for device " ++ idText vendorId ++ ":" ++ idText productId
  | .port e => "Transport error: " ++ e.message
  | .reader e => "I/O manager error: " ++ e.message
  | .spawn text => "Failed to spawn drain thread: " ++ text
  | .notConnected => "Not connected"
  | .invalidState state => "Invalid connection state: " ++ state.name

/-! ## Shared state -/

/-- What the attempt under way owns. Readers, drains and ports go by their numbers. -/
structure Resources where
  drain : Option Nat := none
  reader : Option Nat := none
  subscription : Option Nat := none
  port : Option Nat := none
  deriving DecidableEq

/-- State, attempt and resources, which one lock guards. Every attempt has a number of its own;
work for an older one finds that out by comparing. -/
structure Session where
  state : ConnectionState := .disconnected
  attempt : Nat := 0
  resources : Resources := {}
  deriving DecidableEq

/-- A reader that was made for an attempt, and the port it reads. It hands what it reads to the
attempt that it was made for. -/
structure AttemptReader where
  port : Nat
  reader : Reader Nat
  deriving DecidableEq

/-- A drain thread made for an attempt, and whether it may go on. -/
structure Drain where
  attempt : Nat
  running : Bool := true
  deriving DecidableEq

/-- Bytes received and bytes dropped, and the frames that the checker saw, over all attempts. -/
structure Totals where
  received : Nat := 0
  dropped : Nat := 0
  frames : Stream.FrameTotals := {}
  deriving DecidableEq

/-- The state that the threads of one connection share. -/
structure Connection where
  device : DeviceInfo
  config : ConnectionConfig
  prober : Prober
  session : Session := {}
  /-- The attempt whose reader may feed the ring. -/
  feeding : Nat := 0
  ring : Ring
  checker : Option Stream.Checker := none
  /-- The drain that is in the consumer's callback; there is one at a time. -/
  delivering : Option Nat := none
  /-- Number of ports opened so far. -/
  ports : Nat := 0
  readers : List AttemptReader := []
  drains : List Drain := []
  totals : Totals := {}
  /-- The last handle is gone. -/
  dropped : Bool := false

namespace Connection

/-- Places that the ring owns at first. -/
def initialRing : Nat := 64 * 1024

def new (device : DeviceInfo) (config : ConnectionConfig) (prober : Prober) : Connection :=
  { device, config, prober, ring := .growing initialRing config.ringCapacity }

def state (c : Connection) : ConnectionState := c.session.state

/-- The loss figures of the attempt started last, if frames are checked. -/
def lossSummary (c : Connection) : Option Stream.LossSummary := c.checker.map (·.summary)

/-- Bytes received that the consumer has not been given yet. -/
def buffered (c : Connection) : Nat := c.ring.size

end Connection

end SerialLink
