-- What each task of a connection does. Everything that a task learns from the
-- outside comes in through its answers, so a step is a function.
import SerialLink.Connection.Task

namespace SerialLink.Connection

/-! ## Sections under the session lock -/

/-- The attempt is still the one that is connecting. -/
def isConnecting (c : Connection) (attempt : Nat) : Bool :=
  c.session.attempt == attempt && c.session.state == .connecting

/-- Lets a drain go on no further. -/
def stopDrain (c : Connection) (drain : Nat) : Connection :=
  { c with drains := c.drains.modify drain fun d => { d with running := false } }

/-- Takes the resources out of the session and stops the drain among them. -/
def takeResources (c : Connection) : Resources × Connection :=
  let r := c.session.resources
  let c := { c with session := { c.session with resources := {} } }
  (r, match r.drain with
    | some drain => c.stopDrain drain
    | none => c)

/-- Leaves the attempt under way for `state` and hands back what it owned. -/
def endAttempt (c : Connection) (state : ConnectionState) : Resources × Connection :=
  let (r, c) := c.takeResources
  (r, { c with session := { c.session with state } })

/-- Gives resources back: the reader first, then the subscription, the port last, because closing
it is what ends a read under way. -/
def releaseTasks (r : Resources) : List Task :=
  (r.reader.map fun n => [Task.clearListener n, .stopReader n]).getD [] ++
    ((r.subscription.map fun n => [Task.unsubscribe n]).getD [] ++
      (r.port.map fun n => [Task.closePort n]).getD [])

/-- Changes one reader. -/
def modifyReader (c : Connection) (n : Nat) (f : Reader Nat → Reader Nat) : Connection :=
  { c with readers := c.readers.modify n fun a => { a with reader := f a.reader } }

/-! ## Connecting -/

/-- Starts an attempt, from rest or after a failure only. The subscription is made before the grant
is asked for, so that no event in between is missed. -/
def stepConnect (c : Connection) (x : Outside) : Outcome :=
  if c.session.state.isLive then
    { connection := c
      effects := [.returned (.connect (.error (.invalidState c.session.state)))] }
  else
    match x.subscribe with
    | .error e =>
      { connection := c, effects := [.returned (.connect (.error (.port e)))] }
    | .ok subscription =>
      let attempt := c.session.attempt + 1
      let state := if x.permitted then .connecting else .awaitingPermission
      let resources := { c.session.resources with subscription := some subscription }
      { connection := { c with session := { state, attempt, resources } }
        effects := [.subscribed subscription]
        next := [.resetChecker, .notify attempt .connecting,
          if x.permitted then .openPort attempt else .requestPermission attempt,
          .finish (.connect (.ok ()))] }

/-- Asks the host to open the device with the driver that the tables name. -/
def stepOpenPort (c : Connection) (x : Outside) (attempt : Nat) : Outcome :=
  match c.prober.probe c.device with
  | none =>
    { connection := c
      next := [.fail attempt (.noDriver c.device.vendorId c.device.productId)] }
  | some kind =>
    { connection := c, effects := [.opening kind]
      next := [.portOpened attempt kind (x.openPort kind)] }

/-- Records the port, or closes it if the attempt has ended meanwhile. -/
def stepPortOpened (c : Connection) (attempt : Nat) (kind : DriverKind) :
    Except PortError Unit → Outcome
  | .error e => { connection := c, next := [.fail attempt (.port e)] }
  | .ok () =>
    let port := c.ports
    let opened := { c with ports := c.ports + 1 }
    if c.isConnecting attempt then
      let resources := { c.session.resources with port := some port }
      { connection := { opened with session := { c.session with resources } }
        next := [.setParameters attempt kind port] }
    else { connection := opened, next := [.closePort port] }

/-- Makes a reader for the port and records it, unless the attempt has ended meanwhile. -/
def stepRecordReader (c : Connection) (x : Outside) (attempt port : Nat) : Outcome :=
  let number := c.readers.length
  let size := c.config.readBufferSize.getD (x.packetSize port)
  let made := { c with readers := c.readers ++ [{ port, reader := .new size (some attempt) }] }
  if c.isConnecting attempt then
    let resources := { c.session.resources with reader := some number }
    { connection := { made with session := { c.session with resources } }
      next := [.startReader attempt number] }
  else { connection := made }

/-- Starts the read thread. -/
def stepStartReader (c : Connection) (x : Outside) (attempt number : Nat) : Outcome :=
  match c.readers[number]? with
  | none => { connection := c }
  | some a =>
    match a.reader.start x.thread with
    | (.error e, _) => { connection := c, next := [.fail attempt (.reader e)] }
    | (.ok (), reader) =>
      { connection := c.modifyReader number fun _ => reader
        next := [.startDrain attempt]
        started := [[.read number .checking]] }

/-- Starts a drain thread. -/
def stepStartDrain (c : Connection) (x : Outside) (attempt : Nat) : Outcome :=
  match x.thread with
  | .error text => { connection := c, next := [.fail attempt (.spawn text)] }
  | .ok () =>
    let number := c.drains.length
    { connection := { c with drains := c.drains ++ [{ attempt }] }
      next := [.recordDrain attempt number]
      started := [[.take number]] }

/-- Records the drain; the connection is up. If the attempt has ended meanwhile the drain is
stopped. -/
def stepRecordDrain (c : Connection) (attempt drain : Nat) : Outcome :=
  if c.isConnecting attempt then
    let resources := { c.session.resources with drain := some drain }
    { connection := { c with session := { c.session with state := .connected, resources } }
      next := [.notify attempt .connected] }
  else { connection := c.stopDrain drain }

/-! ## Ending -/

/-- Ends an attempt that waits for its grant or connects; an error of an older one is nothing. -/
def stepFail (c : Connection) (attempt : Nat) (e : ConnectionError) : Outcome :=
  if c.session.attempt = attempt ∧
      (c.session.state = .awaitingPermission ∨ c.session.state = .connecting) then
    let (r, c) := c.endAttempt .failed
    { connection := c, next := releaseTasks r ++ [.notify attempt (.failed e)] }
  else { connection := c }

/-- Ends the attempt under way, if it is the one meant. -/
def stepTeardown (c : Connection) (attempt : Option Nat) : Outcome :=
  if attempt.getD c.session.attempt = c.session.attempt ∧ c.session.state.isLive then
    let ended := c.session.attempt
    let (r, c) := c.endAttempt .disconnected
    { connection := c, next := releaseTasks r ++ [.notify ended .disconnected] }
  else { connection := c }

/-! ## Events and writes -/

/-- Reacts to an event of the device. -/
def stepHandle (c : Connection) (kind : DeviceEventKind) : Outcome :=
  if c.dropped then { connection := c }
  else
    match kind with
    | .detached => { connection := c, next := [.teardown none] }
    | .permissionGranted =>
      if c.session.state = .awaitingPermission then
        { connection := { c with session := { c.session with state := .connecting } }
          next := [.openPort c.session.attempt] }
      else { connection := c }
    | .permissionDenied =>
      if c.session.state = .awaitingPermission then
        { connection := c, next := [.fail c.session.attempt .accessDenied] }
      else { connection := c }

/-- Finds the port to write to, which only a connected session has. -/
def stepWrite (c : Connection) (data : Bytes) : Outcome :=
  match c.session.state, c.session.resources.port with
  | .connected, some port => { connection := c, next := [.send port data] }
  | _, _ => { connection := c, effects := [.returned (.write (.error .notConnected))] }

/-- Writes to the port. A failed write leaves the connection up. -/
def stepSend (c : Connection) (x : Outside) (port : Nat) (data : Bytes) : Outcome :=
  { connection := c
    effects := [.wrote port data c.config.writeTimeout,
      .returned (.write ((x.write port data).mapError .port))] }

/-! ## The read thread -/

/-- One step of a read thread. Bytes go to the attempt that the reader was made for; an error that
ended it tears that attempt down. -/
def stepRead (c : Connection) (x : Outside) (number : Nat) (point : Reader.Point Nat) :
    Option Outcome := do
  let a ← c.readers[number]?
  let (next, reader) ← a.reader.step (x.read a.port) point
  let effects := if point = .reading then [.readFrom a.port a.reader.size] else []
  let connection := c.modifyReader number fun _ => reader
  pure { connection, effects
         next := match next with
          | .goto point => [.read number point]
          | .newData attempt bytes point => [.accept attempt bytes, .read number point]
          | .runError attempt _ point =>
            (if c.dropped then [] else [.teardown (some attempt)]) ++ [.read number point]
          | .done => [] }

/-- Lets bytes in only while their attempt feeds the ring. -/
def stepAccept (c : Connection) (attempt : Nat) (bytes : Bytes) : Outcome :=
  if !c.dropped ∧ c.feeding = attempt then
    { connection :=
        { c with totals := { c.totals with received := c.totals.received + bytes.length } }
      next := [.check bytes, .enqueue bytes] }
  else { connection := c }

/-- Shows bytes to the checker. -/
def stepCheck (c : Connection) (bytes : Bytes) : Outcome :=
  match c.checker with
  | none => { connection := c }
  | some checker =>
    let (verdict, checker) := checker.check bytes
    let totals := { c.totals with frames := c.totals.frames.record verdict }
    { connection := { c with checker := some checker, totals } }

/-- Puts bytes into the ring, or counts them as dropped. -/
def stepEnqueue (c : Connection) (bytes : Bytes) : Outcome :=
  match c.ring.put bytes with
  | (.ok (), ring) => { connection := { c with ring } }
  | (.error _, ring) =>
    let totals := { c.totals with dropped := c.totals.dropped + bytes.length }
    { connection := { c with ring, totals } }

/-! ## The drain thread -/

/-- The drain may go on. -/
def drainRuns (c : Connection) (drain : Nat) : Bool :=
  (c.drains[drain]?.map (·.running)).getD false

/-- Takes everything out of the ring. Whether the drain may is seen under the lock of the ring, so
a stopped one never takes the bytes of the next attempt. -/
def stepTake (c : Connection) (drain : Nat) : Outcome :=
  if c.drainRuns drain then
    let (batch, ring) := c.ring.drain
    { connection := { c with ring }
      next := [if batch.isEmpty then .pause drain else .deliver drain batch] }
  else { connection := c }

/-- Goes to the consumer with a batch once no other drain is there; a drain that was stopped
meanwhile drops its batch and is gone. One that is stopped behind this check still gives it. -/
def stepDeliver (c : Connection) (drain : Nat) (batch : Bytes) : Option Outcome :=
  match c.delivering with
  | some _ => none
  | none =>
    if c.drainRuns drain then
      some { connection := { c with delivering := some drain }, next := [.give drain batch] }
    else some { connection := c }

/-- Calls the consumer. -/
def stepGive (c : Connection) (drain : Nat) (batch : Bytes) : Outcome :=
  { connection := c, effects := [.delivered drain batch], next := [.delivered drain, .pause drain] }

/-! ## All tasks -/

/-- What a task does, or nothing while it has to wait. -/
def exec (c : Connection) (x : Outside) : Task → Option Outcome
  | .connect => some (c.stepConnect x)
  | .resetChecker => some { connection := { c with checker := c.config.diagnostics.map .new } }
  | .notify attempt notice => some { connection := c, effects := [.notified attempt notice] }
  | .requestPermission attempt =>
    some { connection := c, effects := [.permissionRequested]
           next := [.permissionRequested attempt x.requestPermission] }
  | .permissionRequested attempt answer =>
    some { connection := c
           next := match answer with
            | .ok () => []
            | .error e => [.fail attempt (.port e)] }
  | .finish result => some { connection := c, effects := [.returned result] }
  | .openPort attempt => some (c.stepOpenPort x attempt)
  | .portOpened attempt kind answer => some (c.stepPortOpened attempt kind answer)
  | .setParameters attempt kind port =>
    some { connection := c, effects := [.parametersSet port kind.lineParameters]
           next := [.parametersSet attempt port (x.setParameters port kind.lineParameters)] }
  | .parametersSet attempt port answer =>
    some { connection := c
           next := match answer with
            | .ok () => [.clearRing, .startFeeding attempt, .recordReader attempt port]
            | .error e => [.fail attempt (.port e)] }
  | .clearRing => some { connection := { c with ring := c.ring.clear } }
  | .startFeeding attempt => some { connection := { c with feeding := attempt } }
  | .recordReader attempt port => some (c.stepRecordReader x attempt port)
  | .startReader attempt reader => some (c.stepStartReader x attempt reader)
  | .startDrain attempt => some (c.stepStartDrain x attempt)
  | .recordDrain attempt drain => some (c.stepRecordDrain attempt drain)
  | .fail attempt e => some (c.stepFail attempt e)
  | .teardown attempt => some (c.stepTeardown attempt)
  | .clearListener reader =>
    some { connection := c.modifyReader reader fun r => r.setListener none }
  | .stopReader reader => some { connection := c.modifyReader reader Reader.stop }
  | .unsubscribe subscription => some { connection := c, effects := [.unsubscribed subscription] }
  | .closePort port => some { connection := c, effects := [.closed port] }
  | .drop =>
    let (r, c) := c.takeResources
    some { connection := { c with dropped := true }, next := releaseTasks r }
  | .handle kind => some (c.stepHandle kind)
  | .write data => some (c.stepWrite data)
  | .send port data => some (c.stepSend x port data)
  | .read reader point => c.stepRead x reader point
  | .accept attempt bytes => some (c.stepAccept attempt bytes)
  | .check bytes => some (c.stepCheck bytes)
  | .enqueue bytes => some (c.stepEnqueue bytes)
  | .take drain => some (c.stepTake drain)
  | .deliver drain batch => c.stepDeliver drain batch
  | .give drain batch => some (c.stepGive drain batch)
  | .delivered _ => some { connection := { c with delivering := none } }
  | .pause drain => some { connection := c, next := [.take drain] }

end SerialLink.Connection
