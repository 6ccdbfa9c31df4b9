-- The reader of a port. A thread of its own reads in slices of a fixed size,
-- hands each to a listener, and ends at the first error or when it was asked
-- to stop. Stopping only asks: a read under way goes on until the port answers.
import SerialLink.Bytes
import SerialLink.Port.Error

namespace SerialLink

/-- Life of the read thread. -/
inductive ReaderState
  | stopped | running | stopping
  deriving DecidableEq

def ReaderState.name : ReaderState → String
  | .stopped => "Stopped"
  | .running => "Running"
  | .stopping => "Stopping"

/-- Why a reader did not start. -/
inductive ReaderError
  | alreadyStarted (state : ReaderState)
  /-- The platform made no thread. -/
  | spawn (text : String)
  deriving DecidableEq

def ReaderError.message : ReaderError → String
  | .alreadyStarted state => "I/O manager already started (state " ++ state.name ++ ")"
  | .spawn text => "Failed to spawn read thread: " ++ text

/-- A reader: the size of its reads, its state, and who listens. State and listener are locked
each on its own, so a thread looks at one of them at a time. -/
structure Reader (Listener : Type) where
  /-- Bytes that one read brings at most. -/
  size : Nat
  state : ReaderState := .stopped
  listener : Option Listener
  deriving DecidableEq

namespace Reader

variable {Listener : Type}

/-- A reader at rest. It reads at least one byte at a time. -/
def new (size : Nat) (listener : Option Listener) : Reader Listener :=
  { size := max size 1, listener }

/-- Starts the thread, unless one is still alive. Where the platform makes none, the reader is at
rest again. -/
def start (r : Reader Listener) (made : Except String Unit) :
    Except ReaderError Unit × Reader Listener :=
  match r.state, made with
  | .stopped, .ok () => (.ok (), { r with state := .running })
  | .stopped, .error text => (.error (.spawn text), r)
  | state, _ => (.error (.alreadyStarted state), r)

/-- Asks the thread to end after the read under way. -/
def stop (r : Reader Listener) : Reader Listener :=
  if r.state = .running then { r with state := .stopping } else r

/-- Sets who listens from now on. -/
def setListener (r : Reader Listener) (listener : Option Listener) : Reader Listener :=
  { r with listener }

/-! ## The read thread -/

/-- Where a read thread stands. -/
inductive Point (Listener : Type)
  /-- About to see whether it may go on. -/
  | checking
  /-- In a read of the port. -/
  | reading
  /-- A read brought bytes; about to fetch the listener. -/
  | received (bytes : Bytes)
  /-- About to hand the bytes to the listener it fetched. -/
  | delivering (listener : Listener) (bytes : Bytes)
  /-- A read failed; about to see whether a stop was asked for. -/
  | failed (e : PortError)
  /-- About to fetch the listener for the error. -/
  | reporting (e : PortError)
  /-- About to tell the listener it fetched. -/
  | telling (listener : Listener) (e : PortError)
  /-- On its way out. -/
  | leaving
  deriving DecidableEq

/-- What one step of a read thread comes to. -/
inductive Next (Listener : Type)
  /-- It stands at another point. -/
  | goto (point : Point Listener)
  /-- It hands bytes to a listener and goes on from the point. -/
  | newData (listener : Listener) (bytes : Bytes) (point : Point Listener)
  /-- It tells a listener of the error that ended it and goes on from the point. -/
  | runError (listener : Listener) (e : PortError) (point : Point Listener)
  /-- The thread is gone. -/
  | done

/-- One step of a read thread. `answer` is what a read of the given size would bring now; while it
brings nothing the thread stays in the read. -/
def step (r : Reader Listener) (answer : Nat → Option (Except PortError Bytes)) :
    Point Listener → Option (Next Listener × Reader Listener)
  | .checking => some (.goto (if r.state = .running then .reading else .leaving), r)
  | .reading =>
    match answer r.size with
    | none => none
    | some (.ok []) => some (.goto .checking, r)
    | some (.ok bytes) => some (.goto (.received bytes), r)
    | some (.error e) => some (.goto (.failed e), r)
  | .received bytes =>
    match r.listener with
    | some listener => some (.goto (.delivering listener bytes), r)
    | none => some (.goto .checking, r)
  | .delivering listener bytes => some (.newData listener bytes .checking, r)
  | .failed e => some (.goto (if r.state = .stopping then .leaving else .reporting e), r)
  | .reporting e =>
    match r.listener with
    | some listener => some (.goto (.telling listener e), r)
    | none => some (.goto .leaving, r)
  | .telling listener e => some (.runError listener e .leaving, r)
  | .leaving => some (.done, { r with state := .stopped })

end Reader

end SerialLink
