-- A port that replays a script, and a host that hands it out. They stand in
-- for hardware on a test bench.
import SerialLink.Bytes
import SerialLink.Driver
import SerialLink.Port.Error

namespace SerialLink

/-! ## The port -/

/-- A port whose reads are scripted: each entry is a chunk of bytes or an error. -/
structure ScriptedPort where
  script : List (Except PortError Bytes) := []
  closed : Bool := false
  /-- Number of close calls, redundant ones included. -/
  closes : Nat := 0
  written : List Bytes := []
  /-- The parameters applied last. -/
  parameters : Option LineParameters := none
  refusesParameters : Bool := false
  failsWrites : Bool := false
  /-- Read size that the port asks for. -/
  packetSize : Nat := 64

namespace ScriptedPort

/-- Adds a chunk at the end of the script. -/
def push (p : ScriptedPort) (chunk : Bytes) : ScriptedPort :=
  { p with script := p.script ++ [.ok chunk] }

/-- Adds an error at the end of the script. -/
def pushError (p : ScriptedPort) (e : PortError) : ScriptedPort :=
  { p with script := p.script ++ [.error e] }

/-- Reads up to `n` bytes. A closed port fails and keeps its script; an open one answers with the
first entry, of a longer chunk with as much as fits, and waits (`none`) while there is no entry. -/
def read (p : ScriptedPort) (n : Nat) : Option (Except PortError Bytes) × ScriptedPort :=
  if p.closed then (some (.error .closed), p)
  else
    match p.script with
    | [] => (none, p)
    | .error e :: rest => (some (.error e), { p with script := rest })
    | .ok chunk :: rest =>
      let left := chunk.drop n
      (some (.ok (chunk.take n)),
        { p with script := if left.isEmpty then rest else .ok left :: rest })

/-- Reads to the front of a buffer and tells how many bytes were put there. -/
def readInto (p : ScriptedPort) (buffer : Bytes) :
    Option (Except PortError Nat × Bytes) × ScriptedPort :=
  let (answer, p) := p.read buffer.length
  (answer.map fun
    | .error e => (.error e, buffer)
    | .ok bytes => (.ok bytes.length, bytes ++ buffer.drop bytes.length), p)

/-- Reads that one entry of a script is good for at most: each takes a byte of it, or all of it. -/
def entryReads : Except PortError Bytes → Nat
  | .ok chunk => chunk.length + 1
  | .error _ => 1

/-- Reads that a script is good for at most. -/
def scriptReads (script : List (Except PortError Bytes)) : Nat :=
  script.foldr (fun entry reads => entryReads entry + reads) 0

/-- Writes a payload, which a closed port refuses. -/
def write (p : ScriptedPort) (data : Bytes) : Except PortError Nat × ScriptedPort :=
  if p.closed then (.error .closed, p)
  else if p.failsWrites then (.error (.io "scripted write failure"), p)
  else (.ok data.length, { p with written := p.written ++ [data] })

/-- Applies line parameters; being closed does not matter. -/
def setParameters (p : ScriptedPort) (parameters : LineParameters) :
    Except PortError Unit × ScriptedPort :=
  if p.refusesParameters then (.error (.invalidParameters parameters.text), p)
  else (.ok (), { p with parameters := some parameters })

def close (p : ScriptedPort) : ScriptedPort := { p with closed := true, closes := p.closes + 1 }

/-- Accepts reads and writes again, as a device that was plugged in anew. -/
def reopen (p : ScriptedPort) : ScriptedPort := { p with closed := false }

end ScriptedPort

/-! ## The host -/

/-- A host that opens every device as its one port. -/
structure ScriptedHost where
  devices : List DeviceInfo := []
  permitted : Bool := true
  requests : Nat := 0
  /-- The error that every opening ends with. -/
  openError : Option PortError := none
  /-- The openings that succeeded, with the driver of each. -/
  opened : List (String × DriverKind) := []
  /-- A hook runs inside each successful opening. -/
  hooked : Bool := false
  hookRuns : Nat := 0

namespace ScriptedHost

/-- Opens a device. A failing opening records nothing and runs no hook. -/
def openPort (h : ScriptedHost) (device : DeviceInfo) (kind : DriverKind) :
    Except PortError Unit × ScriptedHost :=
  match h.openError with
  | some e => (.error e, h)
  | none =>
    (.ok (), { h with
      opened := h.opened ++ [(device.identifier, kind)]
      hookRuns := if h.hooked then h.hookRuns + 1 else h.hookRuns })

def requestPermission (h : ScriptedHost) : ScriptedHost := { h with requests := h.requests + 1 }

def grant (h : ScriptedHost) : ScriptedHost := { h with permitted := true }

end ScriptedHost

end SerialLink
