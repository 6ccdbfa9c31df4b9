-- A bench for connections over scripted devices. Operations run one at a time,
-- and what a callback does runs inside it; when the operation is done the read
-- threads and the drains run until none of them has anything left to do.
import SerialLink.Registry
import SerialLink.Port.Scripted

namespace SerialLink.Bench

open SerialLink.Connection

/-! ## What can be asked of the bench -/

/-- Where an action waits: in a callback, or inside a call to the host. -/
inductive Moment
  | connecting | connected | disconnected | failed | data | opening | request
  deriving DecidableEq

/-- What can be made to fail. -/
inductive Fault
  | subscribe | unsubscribe | request | close
  deriving DecidableEq

inductive Op
  | connect | disconnect | state | config
  | write (data : Bytes)
  | emit (kind : DeviceEventKind) (identifier : Option String)
  | push (chunks : List Bytes)
  | pushError (e : PortError)
  | unplug | reopen | grant
  | failOpen (e : PortError)
  | failParameters | failWrites | clearHook
  | fail (fault : Fault) (on : Bool)
  | hold | release
  | drop | create
  | get (identifier : Option String)
  | remove (identifier : Option String)
  | disconnectAll

/-- An operation on the device with this number. -/
structure Command where
  device : Nat
  name : String
  op : Op

/-- What an operation comes back with. -/
inductive Result
  /-- There is nothing to tell. -/
  | nothing
  | done
  | count (n : Nat)
  | state (state : ConnectionState)
  | config (config : ConnectionConfig) (device : DeviceInfo)
  | failed (e : ConnectionError)
  /-- The bench holds no connection to the device. -/
  | noConnection
  | lookup (found : Bool) (same : Option Bool)
  | removed (state : Option ConnectionState)

inductive LogEntry
  | notice (notice : Notice)
  /-- An operation that an action did. -/
  | acted (moment : Moment) (name : String) (result : Result)

/-- Operations that wait for a moment. -/
structure Action where
  moment : Moment
  commands : List Command

/-! ## The bench -/

/-- A scripted device: its host, its port, what waits for its callbacks, and what they recorded. -/
structure Site where
  device : DeviceInfo
  host : ScriptedHost
  port : ScriptedPort
  actions : List Action := []
  refusesSubscription : Bool := false
  refusesRequest : Bool := false
  /-- The next delivery stays in its callback. -/
  hold : Bool := false
  log : List LogEntry := []
  data : Bytes := []
  /-- The time limit of every write that reached the port. -/
  timeouts : List Nat := []
  /-- The connection that the bench holds for the device. -/
  held : Option Nat := none

/-- What an operation's result hangs on. -/
inductive Pending
  | known (result : Result)
  /-- What the call in a thread of a connection came back with. -/
  | returnedBy (connection thread : Nat)
  | removedState (connection : Option Nat)

/-- What is still to be done, in order. -/
inductive Todo
  /-- Lets a thread run until it ended or has to wait. -/
  | resume (connection thread : Nat)
  /-- Lets the thread of a handler run, unless its subscription was ended in the meantime. -/
  | tell (connection thread subscription : Nat)
  /-- Does an operation, for an action of a site if one is given. -/
  | perform (command : Command) (origin : Option (Nat × Moment))
  /-- Tells the result of an operation. -/
  | conclude (pending : Pending) (command : Command) (origin : Option (Nat × Moment))
  /-- Lets go of connections that nobody holds. -/
  | dropUnheld

/-- Sites and connections, and what the operation under way has come to. The consumer of a
connection is the number of its site. -/
structure Sessions extends Directory Nat where
  /-- Callbacks only ignore what they are told. -/
  quiet : Bool := false
  sites : List Site
  /-- Ports that their connection has closed: such a port fails for good. -/
  closedPorts : List (Nat × Nat) := []
  returned : List ((Nat × Nat) × Returned) := []
  agenda : List Todo := []
  result : Result := .nothing

namespace Sessions

/-! ## Answers from outside -/

/-- A drain that rests this long or longer takes one look at the ring and never wakes again. -/
def parkedInterval : Nat := 1000

def home (b : Sessions) (connection : Nat) : Nat := b.consumers[connection]?.getD 0

/-- The site that answers a connection: that of its device, the last one if several sites have a
device of this identifier. -/
def hostOf (b : Sessions) (connection : Nat) : Nat :=
  let identifier := b.world.machines[connection]?.map (·.connection.device.identifier)
  let named := b.sites.zipIdx.filter fun (s, _) => some s.device.identifier == identifier
  (named.getLast?.map (·.2)).getD (b.home connection)

def modifySite (b : Sessions) (n : Nat) (f : Site → Site) : Sessions :=
  { b with sites := b.sites.modify n f }

def connection? (b : Sessions) (n : Nat) : Option Connection :=
  b.world.machines[n]?.map (·.connection)

/-- What a site answers a connection now. -/
def outside (b : Sessions) (connection : Nat) (site : Site) : Outside :=
  { subscribe := if site.refusesSubscription then .error (.subscription "scripted") else .ok 0
    permitted := site.host.permitted
    requestPermission :=
      if site.refusesRequest then .error (.permissionRequest "scripted") else .ok ()
    openPort := fun kind => (site.host.openPort site.device kind).1
    packetSize := fun _ => site.port.packetSize
    setParameters := fun _ parameters => (site.port.setParameters parameters).1
    write := fun _ data => (site.port.write data).1
    read := fun port size =>
      if b.closedPorts.contains (connection, port) then some (.error .closed)
      else (site.port.read size).1 }

/-! ## What steps do to the sites -/

/-- Takes the first action that waits for the moment at a site. -/
def takeAction (b : Sessions) (site : Nat) (moment : Moment) : List Todo × Sessions :=
  match (b.sites[site]?.map (·.actions)).getD [] |>.find? fun a => a.moment = moment with
  | none => ([], b)
  | some action =>
    (action.commands.map fun command => .perform command (some (site, moment)),
      b.modifySite site fun s => { s with actions := s.actions.eraseP fun a => a.moment = moment })

def Notice.moment : Notice → Moment
  | .connecting => .connecting
  | .connected => .connected
  | .disconnected => .disconnected
  | .failed _ => .failed

/-- What one effect does to the site that answers its connection, or to the one that is told, and
what it sets off. -/
def apply (b : Sessions) (connection thread : Nat) : Effect → List Todo × Sessions
  | .subscribed _ | .unsubscribed _ => ([], b)
  | .permissionRequested =>
    let site := b.hostOf connection
    let asked := b.modifySite site fun s => { s with host := s.host.requestPermission }
    asked.takeAction site .request
  | .opening kind =>
    let site := b.hostOf connection
    match b.sites[site]? with
    | none => ([], b)
    | some s =>
      match s.host.openPort s.device kind with
      | (.ok (), host) =>
        (b.modifySite site fun s => { s with host }).takeAction site .opening
      | (.error _, _) => ([], b)
  | .parametersSet _ parameters =>
    ([], b.modifySite (b.hostOf connection) fun s =>
      { s with port := (s.port.setParameters parameters).2 })
  | .closed port =>
    ([], { b.modifySite (b.hostOf connection) fun s => { s with port := s.port.close } with
      closedPorts := (connection, port) :: b.closedPorts })
  | .wrote _ data timeout =>
    ([], b.modifySite (b.hostOf connection) fun s =>
      { s with port := (s.port.write data).2, timeouts := s.timeouts ++ [timeout] })
  | .readFrom port size =>
    if b.closedPorts.contains (connection, port) then ([], b)
    else ([], b.modifySite (b.hostOf connection) fun s => { s with port := (s.port.read size).2 })
  | .notified _ notice =>
    if b.quiet then ([], b)
    else
      let site := b.home connection
      (b.modifySite site fun s => { s with log := s.log ++ [.notice notice] }).takeAction site
        (Notice.moment notice)
  | .delivered _ batch =>
    if b.quiet then ([], b)
    else
      let site := b.home connection
      (b.modifySite site fun s => { s with data := s.data ++ batch }).takeAction site .data
  | .returned result => ([], { b with returned := ((connection, thread), result) :: b.returned })

/-- What the effects of one step do, in order. -/
def applyAll (b : Sessions) (connection thread : Nat) : List Effect → List Todo × Sessions
  | [] => ([], b)
  | effect :: rest =>
    let (todo, b) := b.apply connection thread effect
    let (more, b) := applyAll b connection thread rest
    (todo ++ more, b)

/-! ## Threads -/

/-- The thread has a step to take now. A drain that rests wakes when it was stopped, or when there
is something in the ring and its rest is short; a held callback stays where it is. -/
def isReady (b : Sessions) (connection thread : Nat) : Bool :=
  match b.world.machines[connection]?, b.sites[b.home connection]?,
    b.sites[b.hostOf connection]? with
  | some m, some site, some host =>
    match m.next? thread with
    | none => false
    | some (.pause drain) =>
      !m.connection.drainRuns drain ||
        (decide (m.connection.config.drainInterval < parkedInterval) && m.connection.buffered != 0)
    | some (.delivered _) => !site.hold || b.quiet
    | some (.deliver _ _) => m.connection.delivering.isNone
    | some (.read n .reading) =>
      match m.connection.readers[n]? with
      | some a => ((b.outside connection host).read a.port a.reader.size).isSome
      | none => false
    | some _ => true
  | _, _, _ => false

/-- One step of a thread, and what it sets off. -/
def stepThread (b : Sessions) (connection thread : Nat) : Option (List Todo × Sessions) := do
  let host ← b.sites[b.hostOf connection]?
  let (effects, world) ← b.world.step connection thread (b.outside connection host)
  pure ({ b with world }.applyAll connection thread effects)

/-- Ends a thread where it stands. -/
def endThread (b : Sessions) (connection thread : Nat) : Sessions :=
  let machines := b.world.machines.modify connection fun m =>
    { m with threads := m.threads.set thread [] }
  { b with world := { b.world with machines } }

/-- Threads by number, with the task that each stands at. -/
def standing (b : Sessions) : List ((Nat × Nat) × Task) :=
  (b.world.machines.zipIdx.map fun (m, c) =>
    m.threads.zipIdx.filterMap fun (tasks, t) => tasks.head?.map fun task => ((c, t), task)).flatten

/-- Threads that have their turn first: drains that do not rest, then readers, then drains that
rest. -/
def turn : Task → Nat
  | .pause _ => 2
  | .read _ _ | .accept _ _ | .check _ | .enqueue _ => 1
  | _ => 0

/-- The thread to run next, once no operation is under way. -/
def nextReady (b : Sessions) : Option (Nat × Nat) :=
  let ready := b.standing.filter fun (who, _) => b.isReady who.1 who.2
  ([0, 1, 2].findSome? fun n => ready.find? fun (_, task) => turn task = n).map (·.1)

/-! ## Operations -/

/-- Starts a call on the connection held for a site. -/
def beginCall (b : Sessions) (held : Option Nat) (tasks : List Task)
    (pending : Nat → Nat → Pending) (command : Command) (origin : Option (Nat × Moment)) :
    List Todo × Sessions :=
  match held with
  | none => ([.conclude (.known .noConnection) command origin], b)
  | some connection =>
    let (thread, world) := b.world.spawn connection tasks
    ([.resume connection thread, .conclude (pending connection thread) command origin],
      { b with world })

/-- Starts disconnecting several connections, one after the other. -/
def beginDisconnects (b : Sessions) : List Nat → List Todo × Sessions
  | [] => ([], b)
  | connection :: rest =>
    let (thread, world) := b.world.spawn connection Call.disconnect.tasks
    let (todo, b) := beginDisconnects { b with world } rest
    (.resume connection thread :: todo, b)

/-- Holds a connection for a site from now on. -/
def holdConnection (b : Sessions) (site : Nat) (connection : Option Nat) : Sessions :=
  b.modifySite site fun s => { s with held := connection }

/-- Begins an operation: what it does at once, and what is then still to be done. -/
def begin (b : Sessions) (command : Command) (origin : Option (Nat × Moment)) :
    List Todo × Sessions :=
  let n := command.device
  match b.sites[n]? with
  | none => ([], b)
  | some site =>
    let conclude (result : Result) : List Todo := [.conclude (.known result) command origin]
    let onSite (f : Site → Site) : List Todo × Sessions := (conclude .nothing, b.modifySite n f)
    let onPort (f : ScriptedPort → ScriptedPort) := onSite fun s => { s with port := f s.port }
    let onHost (f : ScriptedHost → ScriptedHost) := onSite fun s => { s with host := f s.host }
    match command.op with
    | .connect => b.beginCall site.held Call.connect.tasks .returnedBy command origin
    | .write data => b.beginCall site.held (Call.write data).tasks .returnedBy command origin
    | .disconnect =>
      b.beginCall site.held Call.disconnect.tasks (fun _ _ => .known .done) command origin
    | .state =>
      (conclude (match site.held.bind b.connection? with
        | some c => .state c.state
        | none => .noConnection), b)
    | .config =>
      (conclude (match site.held.bind b.connection? with
        | some c => .config c.config c.device
        | none => .noConnection), b)
    | .emit kind identifier =>
      let deviceId := identifier.getD site.device.identifier
      let noted := b.world.events.subscribers.live.filter fun s => s.deviceId == deviceId
      let (threads, world) := b.world.emit { deviceId, kind }
      let told := (threads.zip noted).map fun ((connection, thread), s) =>
        Todo.tell connection thread s.id
      (told ++ conclude .nothing, { b with world })
    | .push chunks => onPort fun p => chunks.foldl .push p
    | .pushError e => onPort fun p => p.pushError e
    | .unplug => onPort .close
    | .reopen => onPort .reopen
    | .failParameters => onPort fun p => { p with refusesParameters := true }
    | .failWrites => onPort fun p => { p with failsWrites := true }
    | .grant => onHost .grant
    | .failOpen e => onHost fun h => { h with openError := some e }
    | .clearHook =>
      onSite fun s => { s with actions := s.actions.filter fun a => a.moment ≠ .opening }
    | .fail .subscribe on => onSite fun s => { s with refusesSubscription := on }
    | .fail .request on => onSite fun s => { s with refusesRequest := on }
    -- Unsubscribing and closing are done even when they report a failure, and nobody asks.
    | .fail .unsubscribe _ | .fail .close _ => onSite id
    | .hold => onSite fun s => { s with hold := true }
    | .release => onSite fun s => { s with hold := false }
    | .drop => (.dropUnheld :: conclude .done, b.holdConnection n none)
    | .create =>
      let (connection, directory) := b.toDirectory.getOrCreate site.device n
      let same := site.held.map fun held => held == connection
      let b := { b with toDirectory := directory }.holdConnection n connection
      (.dropUnheld :: conclude (.lookup true same), b)
    | .get identifier =>
      match b.registry.get (identifier.getD site.device.identifier) with
      | none => (conclude (.lookup false none), b)
      | some connection =>
        let same := site.held.map fun held => held == connection
        (.dropUnheld :: conclude (.lookup true same), b.holdConnection n connection)
    | .remove identifier =>
      let (removed, registry) := b.registry.remove (identifier.getD site.device.identifier)
      let (todo, b) := { b with registry }.beginDisconnects removed.toList
      (todo ++ [.conclude (.removedState removed) command origin, .dropUnheld], b)
    | .disconnectAll =>
      let (todo, b) := b.beginDisconnects b.registry.numbers
      (todo ++ conclude .done, b)

/-- What an operation came back with. -/
def resultOf (b : Sessions) : Pending → Result
  | .known result => result
  | .returnedBy connection thread =>
    match valueAt? (connection, thread) b.returned with
    | some (.connect (.ok ())) => .done
    | some (.write (.ok n)) => .count n
    | some (.connect (.error e)) | some (.write (.error e)) => .failed e
    | none => .nothing
  | .removedState connection => .removed ((connection.bind b.connection?).map (·.state))

/-- The connections that neither a site nor the registry holds any more. -/
def unheld (b : Sessions) : List Nat :=
  (List.range b.world.machines.length).filter fun n =>
    !(b.sites.any fun s => s.held == some n) && !b.registry.numbers.contains n &&
      !((b.connection? n).map (·.dropped)).getD true

/-- Starts letting go of connections. -/
def beginDrops (b : Sessions) : List Nat → List Todo × Sessions
  | [] => ([], b)
  | connection :: rest =>
    let (thread, world) := b.world.spawn connection Call.drop.tasks
    let (todo, b) := beginDrops { b with world } rest
    (.resume connection thread :: todo, b)

/-! ## Running -/

/-- One item of the agenda, `later` being the rest of it. -/
def work (b : Sessions) (item : Todo) (later : List Todo) : Sessions :=
  match item with
  | .resume connection thread =>
    if b.isReady connection thread then
      match b.stepThread connection thread with
      | some (todo, b) => { b with agenda := todo ++ item :: later }
      | none => { b with agenda := later }
    else { b with agenda := later }
  | .tell connection thread subscription =>
    if b.world.events.subscribers.live.any fun s => s.id == subscription then
      { b with agenda := .resume connection thread :: later }
    else { b.endThread connection thread with agenda := later }
  | .perform command origin =>
    let (todo, b) := b.begin command origin
    { b with agenda := todo ++ later }
  | .conclude pending command origin =>
    let result := b.resultOf pending
    match origin with
    | none => { b with result, agenda := later }
    | some (site, moment) =>
      { b.modifySite site fun s => { s with log := s.log ++ [.acted moment command.name result] }
        with agenda := later }
  | .dropUnheld =>
    let (todo, b) := b.beginDrops b.unheld
    { b with agenda := todo ++ later }

/-- Works off the agenda, then lets threads run until none is ready, in at most so many steps. -/
def run : Nat → Sessions → Sessions
  | 0, b => b
  | steps + 1, b =>
    match b.agenda with
    | item :: later => run steps (b.work item later)
    | [] =>
      match b.nextReady with
      | some (connection, thread) => run steps { b with agenda := [.resume connection thread] }
      | none => b

/-- Reads that a command may add. -/
def commandReads (c : Command) : Nat :=
  match c.op with
  | .push chunks => ScriptedPort.scriptReads (chunks.map .ok)
  | _ => 1

/-- Reads that a site is good for at most, with all that is planned there. -/
def siteReads (s : Site) : Nat :=
  ScriptedPort.scriptReads s.port.script +
    (s.actions.flatMap (·.commands)).foldr (fun c reads => commandReads c + reads) 0

/-- Actions and commands that are planned at a site. -/
def sitePlans (s : Site) : Nat := s.actions.length + (s.actions.flatMap (·.commands)).length

/-- Steps that are enough for all that is scripted and planned and for one more command: each read
takes an entry or a byte of a script, each action is carried out once, and each thread has a
bounded way to its end. -/
def enoughSteps (b : Sessions) (command : Command) : Nat :=
  let reads := b.sites.foldr (fun s n => siteReads s + n) (commandReads command)
  let plans := b.sites.foldr (fun s n => sitePlans s + n) 1
  let threads := b.world.machines.foldr (fun m n => m.threads.length + 1 + n) 0
  64 * (reads + threads * b.world.machines.length + 64) * plans

/-- Does one operation and lets everything come to rest. -/
def perform (b : Sessions) (command : Command) : Sessions :=
  let cleared := { b with
    sites := b.sites.map fun s => { s with log := [], data := [] }
    returned := []
    result := .nothing
    agenda := [.perform command none] }
  run (cleared.enoughSteps command) cleared

/-- A bench with one connection to each device. -/
def withConnections (config : ConnectionConfig) (quiet : Bool) (prober : Prober)
    (sites : List Site) : Sessions :=
  let world := sites.foldl (fun w s => (World.add w (.new s.device config prober)).2) {}
  { config, quiet, world
    sites := sites.zipIdx.map fun (s, n) => { s with held := some n }
    consumers := List.range sites.length }

/-- A bench whose connections come from a registry. -/
def withRegistry (config : ConnectionConfig) (quiet : Bool) (sites : List Site) : Sessions :=
  { config, quiet, sites }

end Sessions

end SerialLink.Bench
