-- A port of the platform. It cannot do every framing that line parameters can
-- name, and says so before anything is opened.
import SerialLink.Bytes
import SerialLink.Driver
import SerialLink.Port.Error

namespace SerialLink

/-- A port of the platform: the four settings of its line, and the bytes under way in each
direction. -/
structure NativePort where
  path : String
  settings : LineParameters
  closed : Bool := false
  /-- Bytes that arrived and were not read yet. -/
  incoming : Bytes := []
  /-- Bytes written that the other side has not taken yet. -/
  outgoing : Bytes := []

namespace NativePort

def packetSize : Nat := 512

/-- The platform has one or two stop bits. -/
def checkStopBits : StopBits → Except PortError StopBits
  | .onePointFive => .error (.invalidParameters "1.5 stop bits")
  | bits => .ok bits

/-- The platform has no mark and no space parity. -/
def checkParity : Parity → Except PortError Parity
  | .mark => .error (.invalidParameters "Mark parity")
  | .space => .error (.invalidParameters "Space parity")
  | parity => .ok parity

/-- Opens the port at `path`, which has to be `present`; the framing is checked first. -/
def openAt (path : String) (parameters : LineParameters) (present : Bool) :
    Except PortError NativePort := do
  let stopBits ← checkStopBits parameters.stopBits
  let parity ← checkParity parameters.parity
  if present then
    pure { path, settings := { parameters with stopBits, parity } }
  else throw (.openFailed (path ++ ": No such file or directory"))

/-- Applies line parameters one setting after the other, speed and data bits first. A framing that
the platform does not have ends the call there. -/
def setParameters (p : NativePort) (parameters : LineParameters) :
    Except PortError Unit × NativePort :=
  if p.closed then (.error .closed, p)
  else
    let settings := { p.settings with
      baudRate := parameters.baudRate, dataBits := parameters.dataBits }
    match checkStopBits parameters.stopBits with
    | .error e => (.error e, { p with settings })
    | .ok stopBits =>
      let settings := { settings with stopBits }
      match checkParity parameters.parity with
      | .error e => (.error e, { p with settings })
      | .ok parity => (.ok (), { p with settings := { settings with parity } })

/-- Reads up to `n` bytes; a read that ran into its timeout brings none. -/
def read (p : NativePort) (n : Nat) : Except PortError Bytes × NativePort :=
  if p.closed then (.error .closed, p)
  else (.ok (p.incoming.take n), { p with incoming := p.incoming.drop n })

/-- How a row of reads ended: with enough bytes, with a read that brought none, or with an error. -/
inductive ReadsEnd
  | enough | timeout
  | failed (e : PortError)
  deriving DecidableEq

/-- Reads of up to `n` bytes until `want` bytes came, at most `rounds` of them. -/
def readsOf (want n : Nat) : Nat → NativePort → Bytes × ReadsEnd × NativePort
  | 0, p => ([], if want = 0 then .enough else .timeout, p)
  | rounds + 1, p =>
    if want = 0 then ([], .enough, p)
    else
      match p.read n with
      | (.error e, p) => ([], .failed e, p)
      | (.ok [], p) => ([], .timeout, p)
      | (.ok bytes, p) =>
        let (more, ending, p) := readsOf (want - bytes.length) n rounds p
        (bytes ++ more, ending, p)

/-- Reads of up to `n` bytes until `want` bytes came or no more do. -/
def readUntil (p : NativePort) (want n : Nat) : Bytes × ReadsEnd × NativePort :=
  readsOf want n (p.incoming.length + 1) p

def write (p : NativePort) (data : Bytes) : Except PortError Nat × NativePort :=
  if p.closed then (.error .closed, p)
  else (.ok data.length, { p with outgoing := p.outgoing ++ data })

/-- Closes the port; once is enough. -/
def close (p : NativePort) : NativePort := { p with closed := true }

/-- The other side of the line sends. -/
def arrive (p : NativePort) (data : Bytes) : NativePort := { p with incoming := p.incoming ++ data }

/-- The other side of the line takes up to `n` bytes. -/
def takeSent (p : NativePort) (n : Nat) : Bytes × NativePort :=
  (p.outgoing.take n, { p with outgoing := p.outgoing.drop n })

end NativePort

/-! ## The host of the platform -/

namespace NativeHost

/-- Ports of the platform need no grant. -/
def permitted (_ : DeviceInfo) : Bool := true

/-- A request is pointless and always goes well. -/
def requestPermission (_ : DeviceInfo) : Except PortError Unit := .ok ()

/-- Opens a device under its identifier, with the parameters of its driver. -/
def openPort (device : DeviceInfo) (kind : DriverKind) (present : Bool) :
    Except PortError NativePort :=
  NativePort.openAt device.identifier kind.lineParameters present

end NativeHost

end SerialLink
