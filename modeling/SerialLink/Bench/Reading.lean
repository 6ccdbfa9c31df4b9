-- A bench for one reader over a scripted port. After each operation the read
-- thread runs until it ended or waits for data.
import SerialLink.Reader
import SerialLink.Port.Scripted

namespace SerialLink.Bench

/-- What a listener may do inside a callback. -/
inductive ListenerAction
  | stop | clearListener | start
  /-- The callback itself breaks down, and the thread with it. -/
  | crash
  deriving DecidableEq

def ListenerAction.name : ListenerAction → String
  | .stop => "stop"
  | .clearListener => "clear_listener"
  | .start => "start"
  | .crash => "crash"

/-- What is planned for one callback: `onError` tells which kind of callback it waits for. -/
structure ListenerPlan where
  onError : Bool
  actions : List ListenerAction

/-- What a listener saw and did. -/
inductive ReadingEvent
  | data (bytes : Bytes)
  | runError (e : PortError)
  | acted (action : ListenerAction) (failure : Option ReaderError)

/-- What is done to the bench from outside. -/
inductive ReadingOp
  | push (chunks : List Bytes)
  | pushError (e : PortError)
  | start | stop | close | reopen
  | listen (on : Bool)

/-- A reader, its port, its thread, and the record of the operation under way. -/
structure Reading where
  reader : Reader Unit
  port : ScriptedPort
  thread : Option (Reader.Point Unit) := none
  plans : List ListenerPlan := []
  log : List ReadingEvent := []
  /-- Whether the thread ended in this operation, and whether in good order. -/
  ended : Option Bool := none
  crashed : Bool := false

namespace Reading

/-- Starts the read thread, if the reader allows it. -/
def start (b : Reading) : Option ReaderError × Reading :=
  match b.reader.start (.ok ()) with
  | (.ok (), reader) => (none, { b with reader, thread := some .checking })
  | (.error e, reader) => (some e, { b with reader })

/-- The actions of one callback, up to one that breaks down. -/
def act (b : Reading) : List ListenerAction → Reading
  | [] => b
  | .crash :: _ => { b with crashed := true, thread := some .leaving }
  | action :: rest =>
    let (failure, reader) := match action with
      | .stop => (none, b.reader.stop)
      | .clearListener => (none, b.reader.setListener none)
      | _ => match b.reader.start (.ok ()) with
        | (.ok (), reader) => (none, reader)
        | (.error e, reader) => (some e, reader)
    act { b with reader, log := b.log ++ [.acted action failure] } rest

/-- One callback: it is logged, then the first plan for its kind is carried out. -/
def callback (b : Reading) (onError : Bool) (event : ReadingEvent) (back : Reader.Point Unit) :
    Reading :=
  let b := { b with log := b.log ++ [event], thread := some back }
  match b.plans.find? fun p => p.onError == onError with
  | none => b
  | some plan =>
    act { b with plans := b.plans.eraseP fun p => p.onError == onError } plan.actions

/-- One step of the read thread, if it does not wait. -/
def step? (b : Reading) : Option Reading := do
  let point ← b.thread
  let (next, reader) ← b.reader.step (fun n => (b.port.read n).1) point
  let port := if point = .reading then (b.port.read b.reader.size).2 else b.port
  let b := { b with reader, port }
  pure (match next with
    | .goto point => { b with thread := some point }
    | .newData _ bytes back => b.callback false (.data bytes) back
    | .runError _ e back => b.callback true (.runError e) back
    | .done => { b with thread := none, ended := some (!b.crashed), crashed := false })

/-- Lets the thread run for at most so many steps. -/
def run : Nat → Reading → Reading
  | 0, b => b
  | steps + 1, b =>
    match b.step? with
    | none => b
    | some b => run steps b

/-- Steps that are enough for all that is in the script. -/
def enoughSteps (b : Reading) : Nat := 8 * (ScriptedPort.scriptReads b.port.script + 2)

/-- Does one operation and tells how it went; the thread has not run yet. -/
def perform (b : Reading) (op : ReadingOp) : Option ReaderError × Reading :=
  let b := { b with log := [], ended := none }
  match op with
  | .push chunks => (none, { b with port := chunks.foldl .push b.port })
  | .pushError e => (none, { b with port := b.port.pushError e })
  | .start => b.start
  | .stop => (none, { b with reader := b.reader.stop })
  | .close => (none, { b with port := b.port.close })
  | .reopen => (none, { b with port := b.port.reopen })
  | .listen on => (none, { b with reader := b.reader.setListener (if on then some () else none) })

/-- Lets the thread run until it ended or waits. -/
def settle (b : Reading) : Reading := run b.enoughSteps b

end Reading

end SerialLink.Bench
