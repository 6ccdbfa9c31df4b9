-- The program points of a connection's threads. A thread is a list of tasks
-- still to do; each task is one section under a lock, one call to the outside
-- or one callback, so that any two threads may take turns between tasks.
import SerialLink.Connection.Basic
import SerialLink.Event.Subscribers

namespace SerialLink.Connection

/-- A callback on the life of an attempt. -/
inductive Notice
  | connecting | connected | disconnected
  | failed (e : ConnectionError)
  deriving DecidableEq

/-- What a call comes back with. -/
inductive Returned
  | connect (result : Except ConnectionError Unit)
  | write (result : Except ConnectionError Nat)

/-- A step that a thread has yet to take. -/
inductive Task
  -- A call to connect
  | connect
  | resetChecker
  | notify (attempt : Nat) (notice : Notice)
  | requestPermission (attempt : Nat)
  | permissionRequested (attempt : Nat) (answer : Except PortError Unit)
  | finish (result : Returned)
  -- Opening the port and starting the threads
  | openPort (attempt : Nat)
  | portOpened (attempt : Nat) (kind : DriverKind) (answer : Except PortError Unit)
  | setParameters (attempt : Nat) (kind : DriverKind) (port : Nat)
  | parametersSet (attempt : Nat) (port : Nat) (answer : Except PortError Unit)
  | clearRing
  | startFeeding (attempt : Nat)
  | recordReader (attempt : Nat) (port : Nat)
  | startReader (attempt : Nat) (reader : Nat)
  | startDrain (attempt : Nat)
  | recordDrain (attempt : Nat) (drain : Nat)
  -- The end of an attempt
  | fail (attempt : Nat) (e : ConnectionError)
  | teardown (attempt : Option Nat)
  | clearListener (reader : Nat)
  | stopReader (reader : Nat)
  | unsubscribe (subscription : Nat)
  | closePort (port : Nat)
  | drop
  -- Events and writes
  | handle (kind : DeviceEventKind)
  | write (data : Bytes)
  | send (port : Nat) (data : Bytes)
  -- The read thread
  | read (reader : Nat) (point : Reader.Point Nat)
  | accept (attempt : Nat) (bytes : Bytes)
  | check (bytes : Bytes)
  | enqueue (bytes : Bytes)
  -- The drain thread
  | take (drain : Nat)
  | deliver (drain : Nat) (batch : Bytes)
  | give (drain : Nat) (batch : Bytes)
  | delivered (drain : Nat)
  | pause (drain : Nat)

/-- What the outside would answer if it were called now. A thread sees only the answer to the call
that it makes. -/
structure Outside where
  /-- The number of a new subscription. -/
  subscribe : Except PortError Nat
  permitted : Bool
  requestPermission : Except PortError Unit
  openPort : DriverKind → Except PortError Unit
  /-- Read size that a port asks for. -/
  packetSize : Nat → Nat
  /-- Whether the platform makes a thread. -/
  thread : Except String Unit := .ok ()
  setParameters : Nat → LineParameters → Except PortError Unit
  write : Nat → Bytes → Except PortError Nat
  /-- What a read of a port of up to so many bytes brings; nothing while it waits. -/
  read : Nat → Nat → Option (Except PortError Bytes)

/-- What a step does that is seen from outside. -/
inductive Effect
  | subscribed (subscription : Nat)
  | unsubscribed (subscription : Nat)
  | permissionRequested
  /-- The host was asked to open the device. -/
  | opening (kind : DriverKind)
  | parametersSet (port : Nat) (parameters : LineParameters)
  | closed (port : Nat)
  | wrote (port : Nat) (data : Bytes) (timeout : Nat)
  | readFrom (port : Nat) (size : Nat)
  | notified (attempt : Nat) (notice : Notice)
  | delivered (drain : Nat) (batch : Bytes)
  | returned (result : Returned)

/-- What a task comes to: the shared state behind it, what is seen, the tasks that take its place
in its thread, and the threads that it starts. -/
structure Outcome where
  connection : Connection
  effects : List Effect := []
  next : List Task := []
  started : List (List Task) := []

end SerialLink.Connection
