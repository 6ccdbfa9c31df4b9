-- A scripted port that several threads read. A read that finds nothing sleeps;
-- whatever is scripted, and a close, wakes all that sleep, and each looks again
-- when its turn comes.
import SerialLink.Port.Scripted

namespace SerialLink

/-- A read that waits: the buffer that it is to fill, and whether it was woken since it looked. -/
structure WaitingRead where
  buffer : Bytes
  woken : Bool := false

/-- A port and the reads that wait at it. -/
structure SharedPort where
  port : ScriptedPort := {}
  waiting : List WaitingRead := []

namespace SharedPort

/-- Wakes all reads that wait. -/
def wake (s : SharedPort) : SharedPort :=
  { s with waiting := s.waiting.map fun w => { w with woken := true } }

def push (s : SharedPort) (chunk : Bytes) : SharedPort :=
  { s with port := s.port.push chunk }.wake

def pushError (s : SharedPort) (e : PortError) : SharedPort :=
  { s with port := s.port.pushError e }.wake

def close (s : SharedPort) : SharedPort := { s with port := s.port.close }.wake

/-- Opens the port again. Nobody is woken: a read that sleeps does so at an open port. -/
def reopen (s : SharedPort) : SharedPort := { s with port := s.port.reopen }

/-- A read looks at the port and comes back with what it did to its buffer, or falls asleep. -/
def read (s : SharedPort) (buffer : Bytes) :
    Option (Except PortError Nat × Bytes) × SharedPort :=
  match s.port.readInto buffer with
  | (some answer, port) => (some answer, { s with port })
  | (none, port) => (none, { port, waiting := s.waiting ++ [{ buffer }] })

/-- The port without the read that waits at place `n`. -/
def without (s : SharedPort) (n : Nat) : SharedPort := { s with waiting := s.waiting.eraseIdx n }

/-- The read at place `n` looks again if it was woken, and sleeps on if it was not. -/
def resume (s : SharedPort) (n : Nat) : Option (Except PortError Nat × Bytes) × SharedPort :=
  match s.waiting[n]? with
  | some { buffer, woken := true } => (s.without n).read buffer
  | _ => (none, s)

end SharedPort

end SerialLink
