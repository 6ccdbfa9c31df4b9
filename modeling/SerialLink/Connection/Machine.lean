-- A connection with its threads, and connections that share one event source.
-- Which thread goes next is nobody's choice here: a run is any sequence of
-- steps of threads that need not wait.
import SerialLink.Connection.Step

namespace SerialLink.Connection

/-- A call from outside. -/
inductive Call
  | connect | disconnect
  | write (data : Bytes)
  /-- The last handle is let go. -/
  | drop

/-- The tasks of a call. -/
def Call.tasks : Call → List Task
  | .connect => [.connect]
  | .disconnect => [.teardown none]
  | .write data => [.write data]
  | .drop => [.drop]

/-- A connection and its threads, each with what it has yet to do. -/
structure Machine where
  connection : Connection
  threads : List (List Task) := []

namespace Machine

/-- Starts a thread and tells its number. -/
def spawn (m : Machine) (tasks : List Task) : Nat × Machine :=
  (m.threads.length, { m with threads := m.threads ++ [tasks] })

/-- The next task of a thread. -/
def next? (m : Machine) (thread : Nat) : Option Task := (m.threads[thread]?).bind List.head?

/-- One step of a thread: nothing if it is finished or has to wait. -/
def step (m : Machine) (thread : Nat) (x : Outside) : Option (List Effect × Machine) :=
  match m.threads[thread]? with
  | some (task :: rest) =>
    (m.connection.exec x task).map fun o =>
      (o.effects, { connection := o.connection
                    threads := m.threads.set thread (o.next ++ rest) ++ o.started })
  | _ => none

end Machine

/-! ## Connections that share an event source -/

/-- Connections by number, and the source that tells them of their devices. A handler of the source
is the number of the connection that it tells. -/
structure World where
  machines : List Machine := []
  events : EventSource Nat := {}

namespace World

/-- Adds a connection at rest and tells its number. -/
def add (w : World) (connection : Connection) : Nat × World :=
  (w.machines.length, { w with machines := w.machines ++ [{ connection }] })

/-- Starts a thread of a connection and tells its number. -/
def spawn (w : World) (connection : Nat) (tasks : List Task) : Nat × World :=
  match w.machines[connection]? with
  | none => (0, w)
  | some m =>
    let (thread, m) := m.spawn tasks
    (thread, { w with machines := w.machines.set connection m })

/-- Starts a thread for each handler that is live when the event is emitted, and tells which. -/
def emit (w : World) (event : DeviceEvent) : List (Nat × Nat) × World :=
  callEach (fun connection w =>
    let (thread, w) := spawn w connection [.handle event.kind]
    ((connection, thread), w)) (w.events.subscribers.handlersFor event.deviceId) w

/-- What a step does to the event source. -/
def apply (w : World) (connection : Nat) (deviceId : String) : Effect → World
  | .subscribed _ => { w with events := (w.events.subscribe deviceId connection).2 }
  | .unsubscribed subscription => { w with events := (w.events.unsubscribe subscription).2 }
  | _ => w

/-- The number that the event source would give out next, unless subscribing fails. -/
def numbered (w : World) (x : Outside) : Outside :=
  { x with subscribe := x.subscribe.map fun _ => w.events.subscribers.lastId + 1 }

/-- One step of a thread of a connection. -/
def step (w : World) (connection thread : Nat) (x : Outside) : Option (List Effect × World) := do
  let m ← w.machines[connection]?
  let (effects, m) ← m.step thread (w.numbered x)
  let w := { w with machines := w.machines.set connection m }
  pure (effects, effects.foldl (fun w e => w.apply connection m.connection.device.identifier e) w)

end World

end SerialLink.Connection
