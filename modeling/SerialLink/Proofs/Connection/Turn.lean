-- What each step does to the life of a connection, said once: the session,
-- the ports and drains, the callbacks and releases that it leaves to be done.
-- The laws of the lifecycle and of the resources go through these cases.
import SerialLink.Proofs.Connection.History

namespace SerialLink.Connection

/-! ## Steps that leave the life alone -/

/-- Neither a subscription nor a port comes or goes, and no lifecycle callback is made. -/
def Effect.isAside : Effect → Bool
  | .subscribed _ | .unsubscribed _ | .closed _ | .notified .. => false
  | _ => true

/-- A task outside the read threads and drains that only looks after the checker, the ring, the
listeners, a write or the result of a call. -/
def Task.isAside : Task → Bool
  | .resetChecker | .finish _ | .clearRing | .startFeeding _ => true
  | .clearListener _ | .write _ | .send .. => true
  | _ => false

/-- The attempt whose port and threads the task goes on opening. -/
def Task.stage : Task → Option Nat
  | .openPort n | .portOpened n .. | .setParameters n .. | .parametersSet n .. => some n
  | .recordReader n _ | .startReader n _ | .startDrain n | .recordDrain n _ => some n
  | _ => none

/-- Two connections that differ in ring, checker, listeners and counters at most. -/
structure SameLife (c d : Connection) : Prop where
  session : d.session = c.session
  ports : d.ports = c.ports
  drains : d.drains = c.drains
  readers : d.readers.length = c.readers.length
  dropped : d.dropped = c.dropped

theorem SameLife.refl (c : Connection) : SameLife c c := ⟨rfl, rfl, rfl, rfl, rfl⟩

@[simp] theorem modifyReader_session (c : Connection) (n : Nat) (f : Reader Nat → Reader Nat) :
    (c.modifyReader n f).session = c.session := rfl

@[simp] theorem modifyReader_ports (c : Connection) (n : Nat) (f : Reader Nat → Reader Nat) :
    (c.modifyReader n f).ports = c.ports := rfl

@[simp] theorem length_modifyReader (c : Connection) (n : Nat) (f : Reader Nat → Reader Nat) :
    (c.modifyReader n f).readers.length = c.readers.length :=
  List.length_modify ..

theorem sameLife_modifyReader (c : Connection) (n : Nat) (f : Reader Nat → Reader Nat) :
    SameLife c (c.modifyReader n f) :=
  ⟨rfl, rfl, rfl, length_modifyReader c n f, rfl⟩

/-! ## Taking the resources -/

@[simp] theorem stopDrain_ports (c : Connection) (drain : Nat) :
    (c.stopDrain drain).ports = c.ports := rfl

@[simp] theorem stopDrain_readers (c : Connection) (drain : Nat) :
    (c.stopDrain drain).readers = c.readers := rfl

@[simp] theorem stopDrain_session (c : Connection) (drain : Nat) :
    (c.stopDrain drain).session = c.session := rfl

@[simp] theorem takeResources_fst (c : Connection) :
    c.takeResources.1 = c.session.resources := rfl

@[simp] theorem takeResources_session (c : Connection) :
    c.takeResources.2.session = { c.session with resources := {} } := by
  unfold takeResources
  rcases h : c.session.resources.drain with _ | d <;> simp [h, stopDrain]

@[simp] theorem takeResources_ports (c : Connection) : c.takeResources.2.ports = c.ports := by
  unfold takeResources
  rcases h : c.session.resources.drain with _ | d <;> simp [h, stopDrain]

@[simp] theorem takeResources_readers (c : Connection) :
    c.takeResources.2.readers = c.readers := by
  unfold takeResources
  rcases h : c.session.resources.drain with _ | d <;> simp [h, stopDrain]

@[simp] theorem takeResources_dropped (c : Connection) :
    c.takeResources.2.dropped = c.dropped := by
  unfold takeResources
  rcases h : c.session.resources.drain with _ | d <;> simp [h, stopDrain]

/-- The connection behind the end of the attempt under way. -/
def ended (c : Connection) (state : ConnectionState) : Connection := (c.endAttempt state).2

@[simp] theorem ended_session (c : Connection) (state : ConnectionState) :
    (c.ended state).session = { state, attempt := c.session.attempt, resources := {} } := by
  simp [ended, endAttempt]

@[simp] theorem ended_ports (c : Connection) (state : ConnectionState) :
    (c.ended state).ports = c.ports := takeResources_ports c

@[simp] theorem ended_readers (c : Connection) (state : ConnectionState) :
    (c.ended state).readers = c.readers := takeResources_readers c

@[simp] theorem ended_dropped (c : Connection) (state : ConnectionState) :
    (c.ended state).dropped = c.dropped := takeResources_dropped c

/-! ## Drains that run -/

theorem drainRuns_congr {c d : Connection} (h : d.drains = c.drains) (n : Nat) :
    d.drainRuns n = c.drainRuns n := by
  unfold drainRuns
  rw [h]

theorem drainRuns_stopDrain (c : Connection) (k n : Nat) :
    (c.stopDrain k).drainRuns n = if n = k then false else c.drainRuns n := by
  unfold drainRuns stopDrain
  simp only [List.getElem?_modify]
  by_cases h : n = k
  · subst h
    rcases hd : c.drains[n]? with _ | d <;> simp
  · rw [if_neg h]
    simp [Ne.symm h]

theorem drainRuns_takeResources (c : Connection) (n : Nat) :
    c.takeResources.2.drainRuns n =
      if c.session.resources.drain = some n then false else c.drainRuns n := by
  unfold takeResources
  rcases hd : c.session.resources.drain with _ | k
  · simp only [hd, reduceCtorEq, if_false]
    exact drainRuns_congr rfl n
  · simp only [hd, drainRuns_stopDrain, Option.some.injEq, eq_comm (a := k)]
    split
    · rfl
    · exact drainRuns_congr rfl n

theorem drainRuns_ended (c : Connection) (state : ConnectionState) (n : Nat) :
    (c.ended state).drainRuns n =
      if c.session.resources.drain = some n then false else c.drainRuns n :=
  drainRuns_takeResources c n

theorem drainRuns_new (c : Connection) (d : Drain) (hd : d.running = true) (n : Nat) :
    ({ c with drains := c.drains ++ [d] } : Connection).drainRuns n =
      if n = c.drains.length then true else c.drainRuns n := by
  unfold drainRuns
  dsimp only
  by_cases h : n = c.drains.length
  · rw [h, List.getElem?_append_right (Nat.le_refl _)]
    simp [hd]
  · by_cases hlt : n < c.drains.length
    · rw [List.getElem?_append_left hlt, if_neg h]
    · rw [if_neg h, List.getElem?_eq_none (by simp; omega), List.getElem?_eq_none (by omega)]

theorem not_drainRuns_ahead (c : Connection) : c.drainRuns c.drains.length = false := by
  unfold drainRuns
  rw [List.getElem?_eq_none (Nat.le_refl _)]
  rfl

/-! ## What an end releases -/

/-- A task that gives back what an attempt owned. -/
def Task.isRelease : Task → Bool
  | .clearListener _ | .stopReader _ | .unsubscribe _ | .closePort _ => true
  | _ => false

theorem mem_releaseTasks {r : Resources} {t : Task} :
    t ∈ releaseTasks r ↔
      (∃ n, r.reader = some n ∧ (t = .clearListener n ∨ t = .stopReader n)) ∨
        (∃ n, r.subscription = some n ∧ t = .unsubscribe n) ∨
        ∃ n, r.port = some n ∧ t = .closePort n := by
  obtain ⟨drain, reader, subscription, port⟩ := r
  cases reader <;> cases subscription <;> cases port <;> simp [releaseTasks, or_assoc]

theorem isRelease_of_mem {r : Resources} {t : Task} (h : t ∈ releaseTasks r) : t.isRelease := by
  rcases mem_releaseTasks.mp h with ⟨n, _, rfl | rfl⟩ | ⟨n, _, rfl⟩ | ⟨n, _, rfl⟩ <;> rfl

/-! ## All steps -/

/-- A step that comes to the failure of an attempt: the request, the denial, or a stage of opening
the port and starting the threads. -/
inductive Fails (c : Connection) : Task → Nat → ConnectionError → Prop
  | request {n : Nat} {e : PortError} : Fails c (.permissionRequested n (.error e)) n (.port e)
  | denial (held : c.dropped = false) (waits : c.session.state = .awaitingPermission) :
    Fails c (.handle .permissionDenied) c.session.attempt .accessDenied
  | noDriver {n : Nat} (h : c.prober.probe c.device = none) :
    Fails c (.openPort n) n (.noDriver c.device.vendorId c.device.productId)
  | opening {n : Nat} {kind : DriverKind} {e : PortError} :
    Fails c (.portOpened n kind (.error e)) n (.port e)
  | parameters {n port : Nat} {e : PortError} :
    Fails c (.parametersSet n port (.error e)) n (.port e)
  | starting {n number : Nat} {a : AttemptReader} {made : Except String Unit} {e : ReaderError}
    (h : c.readers[number]? = some a) (he : (a.reader.start made).1 = .error e) :
    Fails c (.startReader n number) n (.reader e)
  | draining {n : Nat} {text : String} : Fails c (.startDrain n) n (.spawn text)

/-- A step that finds nothing to do. -/
inductive Idle (c : Connection) : Task → Prop
  | fail {n : Nat} {e : ConnectionError}
    (h : ¬ (c.session.attempt = n ∧
      (c.session.state = .awaitingPermission ∨ c.session.state = .connecting))) :
    Idle c (.fail n e)
  | teardown {a : Option Nat}
    (h : ¬ (a.getD c.session.attempt = c.session.attempt ∧ c.session.state.isLive)) :
    Idle c (.teardown a)
  | event {kind : DeviceEventKind}
    (h : c.dropped ∨ kind ≠ .detached ∧ c.session.state ≠ .awaitingPermission) :
    Idle c (.handle kind)
  | requested {n : Nat} : Idle c (.permissionRequested n (.ok ()))
  | noReader {n number : Nat} (h : c.readers[number]? = none) : Idle c (.startReader n number)

/-- What a step does, case by case. -/
inductive Turn (c : Connection) : Task → Outcome → Prop
  /-- A read thread or a drain goes on. Of an error that ended it, a read thread tells. -/
  | worker {task : Task} {o : Outcome} (ht : task.isWorker) (hc : SameLife c o.connection)
    (he : ∀ e ∈ o.effects, e.isAside)
    (hn : ∀ t ∈ o.next, t.isWorker ∨ ∃ number n e, c.dropped = false ∧
      task = .read number (.telling n e) ∧ t = .teardown (some n))
    (hs : o.started = []) : Turn c task o
  | aside {task : Task} {o : Outcome} (ht : task.isAside) (hc : SameLife c o.connection)
    (he : ∀ e ∈ o.effects, e.isAside)
    (hn : ∀ t ∈ o.next, ∃ data port, task = .write data ∧ t = .send port data)
    (hs : o.started = []) : Turn c task o
  | idle {task : Task} (h : Idle c task) : Turn c task { connection := c }
  | failing {task : Task} {n : Nat} {e : ConnectionError} (h : Fails c task n e) :
    Turn c task { connection := c, next := [.fail n e] }
  | refused {e : ConnectionError} :
    Turn c .connect { connection := c, effects := [.returned (.connect (.error e))] }
  | begun {subscription : Nat} {permitted : Bool} (h : c.session.state.isLive = false) :
    Turn c .connect
      { connection := { c with session :=
          { state := if permitted then .connecting else .awaitingPermission
            attempt := c.session.attempt + 1
            resources := { c.session.resources with subscription := some subscription } } }
        effects := [.subscribed subscription]
        next := [.resetChecker, .notify (c.session.attempt + 1) .connecting,
          if permitted then .openPort (c.session.attempt + 1)
          else .requestPermission (c.session.attempt + 1),
          .finish (.connect (.ok ()))] }
  | notified {n : Nat} {notice : Notice} :
    Turn c (.notify n notice) { connection := c, effects := [.notified n notice] }
  | requesting {n : Nat} {answer : Except PortError Unit} :
    Turn c (.requestPermission n)
      { connection := c, effects := [.permissionRequested]
        next := [.permissionRequested n answer] }
  | granted (held : c.dropped = false) (h : c.session.state = .awaitingPermission) :
    Turn c (.handle .permissionGranted)
      { connection := { c with session := { c.session with state := .connecting } }
        next := [.openPort c.session.attempt] }
  | detached (held : c.dropped = false) :
    Turn c (.handle .detached) { connection := c, next := [.teardown none] }
  | opening {n : Nat} {kind : DriverKind} {answer : Except PortError Unit} :
    Turn c (.openPort n)
      { connection := c, effects := [.opening kind], next := [.portOpened n kind answer] }
  | portRecorded {n : Nat} {kind : DriverKind} (h : c.isConnecting n) :
    Turn c (.portOpened n kind (.ok ()))
      { connection := { c with
          ports := c.ports + 1
          session := { c.session with
            resources := { c.session.resources with port := some c.ports } } }
        next := [.setParameters n kind c.ports] }
  | portOrphaned {n : Nat} {kind : DriverKind} (h : c.isConnecting n = false) :
    Turn c (.portOpened n kind (.ok ()))
      { connection := { c with ports := c.ports + 1 }, next := [.closePort c.ports] }
  | configuring {n port : Nat} {kind : DriverKind} {answer : Except PortError Unit} :
    Turn c (.setParameters n kind port)
      { connection := c, effects := [.parametersSet port kind.lineParameters]
        next := [.parametersSet n port answer] }
  | configured {n port : Nat} :
    Turn c (.parametersSet n port (.ok ()))
      { connection := c, next := [.clearRing, .startFeeding n, .recordReader n port] }
  | readerRecorded {n port size : Nat} (h : c.isConnecting n) :
    Turn c (.recordReader n port)
      { connection := { c with
          readers := c.readers ++ [{ port, reader := .new size (some n) }]
          session := { c.session with
            resources := { c.session.resources with reader := some c.readers.length } } }
        next := [.startReader n c.readers.length] }
  | readerOrphaned {n port size : Nat} (h : c.isConnecting n = false) :
    Turn c (.recordReader n port)
      { connection := { c with
          readers := c.readers ++ [{ port, reader := .new size (some n) }] } }
  | readerStarted {n number : Nat} {reader : Reader Nat} :
    Turn c (.startReader n number)
      { connection := c.modifyReader number fun _ => reader
        next := [.startDrain n]
        started := [[.read number .checking]] }
  | drainStarted {n : Nat} :
    Turn c (.startDrain n)
      { connection := { c with drains := c.drains ++ [{ attempt := n }] }
        next := [.recordDrain n c.drains.length]
        started := [[.take c.drains.length]] }
  | completed {n drain : Nat} (h : c.isConnecting n) :
    Turn c (.recordDrain n drain)
      { connection := { c with session := { c.session with
          state := .connected
          resources := { c.session.resources with drain := some drain } } }
        next := [.notify n .connected] }
  | drainOrphaned {n drain : Nat} (h : c.isConnecting n = false) :
    Turn c (.recordDrain n drain) { connection := c.stopDrain drain }
  | failed {n : Nat} {e : ConnectionError} (hn : c.session.attempt = n)
    (h : c.session.state = .awaitingPermission ∨ c.session.state = .connecting) :
    Turn c (.fail n e)
      { connection := c.ended .failed
        next := releaseTasks c.session.resources ++ [.notify n (.failed e)] }
  | torn {a : Option Nat} (ha : a.getD c.session.attempt = c.session.attempt)
    (h : c.session.state.isLive) :
    Turn c (.teardown a)
      { connection := c.ended .disconnected
        next := releaseTasks c.session.resources ++ [.notify c.session.attempt .disconnected] }
  | letGo :
    Turn c .drop
      { connection := { c.takeResources.2 with dropped := true }
        next := releaseTasks c.session.resources }
  | readerStopped {number : Nat} :
    Turn c (.stopReader number) { connection := c.modifyReader number Reader.stop }
  | unsubscribed {subscription : Nat} :
    Turn c (.unsubscribe subscription)
      { connection := c, effects := [.unsubscribed subscription] }
  | closed {port : Nat} :
    Turn c (.closePort port) { connection := c, effects := [.closed port] }

/-! ## Every step is one of these -/

theorem turn_connect {c : Connection} {x : Outside} : Turn c .connect (c.stepConnect x) := by
  unfold stepConnect
  split
  · exact .refused
  · rename_i hlive
    split
    · exact .refused
    · exact .begun (by simpa using hlive)

theorem turn_openPort {c : Connection} {x : Outside} {n : Nat} :
    Turn c (.openPort n) (c.stepOpenPort x n) := by
  unfold stepOpenPort
  split
  · exact .failing (.noDriver ‹_›)
  · exact .opening

theorem turn_portOpened {c : Connection} {n : Nat} {kind : DriverKind}
    {answer : Except PortError Unit} :
    Turn c (.portOpened n kind answer) (c.stepPortOpened n kind answer) := by
  rcases answer with e | ⟨⟩
  · exact .failing .opening
  · unfold stepPortOpened
    dsimp only
    split
    · exact .portRecorded ‹_›
    · exact .portOrphaned (eq_false_of_ne_true ‹_›)

theorem turn_recordReader {c : Connection} {x : Outside} {n port : Nat} :
    Turn c (.recordReader n port) (c.stepRecordReader x n port) := by
  unfold stepRecordReader
  dsimp only
  split
  · exact .readerRecorded ‹_›
  · exact .readerOrphaned (eq_false_of_ne_true ‹_›)

theorem turn_startReader {c : Connection} {x : Outside} {n number : Nat} :
    Turn c (.startReader n number) (c.stepStartReader x n number) := by
  unfold stepStartReader
  split
  · exact .idle (.noReader ‹_›)
  · split
    · rename_i hr
      exact .failing (.starting ‹_› (congrArg Prod.fst hr))
    · exact .readerStarted

theorem turn_startDrain {c : Connection} {x : Outside} {n : Nat} :
    Turn c (.startDrain n) (c.stepStartDrain x n) := by
  unfold stepStartDrain
  split
  · exact .failing .draining
  · exact .drainStarted

theorem turn_recordDrain {c : Connection} {n drain : Nat} :
    Turn c (.recordDrain n drain) (c.stepRecordDrain n drain) := by
  unfold stepRecordDrain
  split
  · exact .completed ‹_›
  · exact .drainOrphaned (eq_false_of_ne_true ‹_›)

theorem turn_fail {c : Connection} {n : Nat} {e : ConnectionError} :
    Turn c (.fail n e) (c.stepFail n e) := by
  unfold stepFail
  split
  · rename_i h
    exact .failed h.1 h.2
  · exact .idle (.fail ‹_›)

theorem turn_teardown {c : Connection} {a : Option Nat} :
    Turn c (.teardown a) (c.stepTeardown a) := by
  unfold stepTeardown
  split
  · rename_i h
    exact .torn h.1 h.2
  · exact .idle (.teardown ‹_›)

theorem turn_handle {c : Connection} {kind : DeviceEventKind} :
    Turn c (.handle kind) (c.stepHandle kind) := by
  unfold stepHandle
  split
  · exact .idle (.event (Or.inl ‹_›))
  · have held : c.dropped = false := eq_false_of_ne_true ‹_›
    cases kind with
    | detached => exact .detached held
    | permissionGranted =>
      dsimp only
      split
      · exact .granted held ‹_›
      · exact .idle (.event (Or.inr ⟨by decide, ‹_›⟩))
    | permissionDenied =>
      dsimp only
      split
      · exact .failing (.denial held ‹_›)
      · exact .idle (.event (Or.inr ⟨by decide, ‹_›⟩))

theorem turn_write {c : Connection} {data : Bytes} :
    Turn c (.write data) (c.stepWrite data) := by
  unfold stepWrite
  split <;> exact .aside rfl (.refl c) (by simp [Effect.isAside]) (by simp) rfl

/-- What a read thread leaves to be done behind a step. -/
def afterRead (c : Connection) (number : Nat) : Reader.Next Nat → List Task
  | .goto point => [.read number point]
  | .newData n bytes point => [.accept n bytes, .read number point]
  | .runError n _ point => (if c.dropped then [] else [.teardown (some n)]) ++ [.read number point]
  | .done => []

theorem stepRead_eq {c : Connection} {x : Outside} {number : Nat} {point : Reader.Point Nat}
    {o : Outcome} (h : c.stepRead x number point = some o) :
    ∃ a next reader, c.readers[number]? = some a ∧
      a.reader.step (x.read a.port) point = some (next, reader) ∧
      o = { connection := c.modifyReader number fun _ => reader
            effects := if point = .reading then [.readFrom a.port a.reader.size] else []
            next := c.afterRead number next } := by
  unfold stepRead at h
  rcases ha : c.readers[number]? with _ | a
  · simp [ha] at h
  · rcases hs : a.reader.step (x.read a.port) point with _ | ⟨next, reader⟩
    · simp [ha, hs] at h
    · simp only [ha, hs, Option.pure_def, Option.bind_eq_bind, Option.bind_some,
        Option.some.injEq] at h
      refine ⟨a, next, reader, rfl, hs, ?_⟩
      rw [← h]
      cases next <;> rfl

theorem mem_afterRead {c : Connection} {number : Nat} {next : Reader.Next Nat} {t : Task}
    (h : t ∈ c.afterRead number next) :
    (∃ point, t = .read number point) ∨ (∃ n bytes, t = .accept n bytes) ∨
      ∃ n e point, next = .runError n e point ∧ c.dropped = false ∧ t = .teardown (some n) := by
  cases next with
  | goto point => exact Or.inl ⟨point, List.mem_singleton.mp h⟩
  | newData n bytes point =>
    rcases List.mem_cons.mp h with rfl | h
    · exact Or.inr (Or.inl ⟨n, bytes, rfl⟩)
    · exact Or.inl ⟨point, List.mem_singleton.mp h⟩
  | runError n e point =>
    rcases List.mem_append.mp h with h | h
    · split at h
      · cases h
      · have held : c.dropped = false := eq_false_of_ne_true ‹_›
        exact Or.inr (Or.inr ⟨n, e, point, rfl, held, List.mem_singleton.mp h⟩)
    · exact Or.inl ⟨point, List.mem_singleton.mp h⟩
  | done => cases h

/-- A run error is told by the last step before the thread leaves. -/
theorem point_of_runError {r r' : Reader Nat} {answer : Nat → Option (Except PortError Bytes)}
    {point after : Reader.Point Nat} {n : Nat} {e : PortError}
    (h : r.step answer point = some (.runError n e after, r')) : point = .telling n e := by
  unfold Reader.step at h
  cases point <;> simp at h <;> try (split at h <;> simp at h)
  exact congrArg₂ _ h.1.1 h.1.2.1

theorem turn_read {c : Connection} {x : Outside} {number : Nat} {point : Reader.Point Nat}
    {o : Outcome} (h : c.stepRead x number point = some o) : Turn c (.read number point) o := by
  obtain ⟨a, next, reader, _, hs, rfl⟩ := stepRead_eq h
  refine .worker rfl (sameLife_modifyReader c number fun _ => reader) ?_ ?_ rfl
  · dsimp only
    split <;> simp [Effect.isAside]
  · intro t ht
    rcases mem_afterRead ht with ⟨_, rfl⟩ | ⟨_, _, rfl⟩ | ⟨n, e, _, rfl, held, rfl⟩
    · exact Or.inl rfl
    · exact Or.inl rfl
    · exact Or.inr ⟨number, n, e, held, by rw [point_of_runError hs], rfl⟩

theorem turn_accept {c : Connection} {n : Nat} {bytes : Bytes} :
    Turn c (.accept n bytes) (c.stepAccept n bytes) := by
  unfold stepAccept
  split
  · exact .worker rfl ⟨rfl, rfl, rfl, rfl, rfl⟩ (by simp) (by simp [Task.isWorker]) rfl
  · exact .worker rfl (.refl c) (by simp) (by simp) rfl

theorem turn_check {c : Connection} {bytes : Bytes} :
    Turn c (.check bytes) (c.stepCheck bytes) := by
  unfold stepCheck
  split
  · exact .worker rfl (.refl c) (by simp) (by simp) rfl
  · exact .worker rfl ⟨rfl, rfl, rfl, rfl, rfl⟩ (by simp) (by simp) rfl

theorem turn_enqueue {c : Connection} {bytes : Bytes} :
    Turn c (.enqueue bytes) (c.stepEnqueue bytes) := by
  unfold stepEnqueue
  split <;> exact .worker rfl ⟨rfl, rfl, rfl, rfl, rfl⟩ (by simp) (by simp) rfl

theorem turn_take {c : Connection} {drain : Nat} : Turn c (.take drain) (c.stepTake drain) := by
  unfold stepTake
  split
  · refine .worker rfl ⟨rfl, rfl, rfl, rfl, rfl⟩ (by simp) ?_ rfl
    intro t ht
    dsimp only at ht
    rw [List.mem_singleton] at ht
    subst ht
    split <;> exact Or.inl rfl
  · exact .worker rfl (.refl c) (by simp) (by simp) rfl

/-- A drain goes to the consumer with its batch, or drops it because it was stopped. -/
theorem stepDeliver_eq {c : Connection} {drain : Nat} {batch : Bytes} {o : Outcome}
    (h : c.stepDeliver drain batch = some o) :
    c.drainRuns drain = true ∧ o = { connection := { c with delivering := some drain }
                                     next := [.give drain batch] } ∨
      c.drainRuns drain = false ∧ o = { connection := c } := by
  unfold stepDeliver at h
  split at h
  · cases h
  · split at h <;> cases h
    · exact Or.inl ⟨‹_›, rfl⟩
    · exact Or.inr ⟨eq_false_of_ne_true ‹_›, rfl⟩

/-- One drain at a time goes to the consumer. -/
theorem idle_of_deliver {c : Connection} {drain : Nat} {batch : Bytes} {o : Outcome}
    (h : c.stepDeliver drain batch = some o) : c.delivering = none := by
  unfold stepDeliver at h
  split at h
  · cases h
  · assumption

theorem turn_deliver {c : Connection} {drain : Nat} {batch : Bytes} {o : Outcome}
    (h : c.stepDeliver drain batch = some o) : Turn c (.deliver drain batch) o := by
  rcases stepDeliver_eq h with ⟨_, rfl⟩ | ⟨_, rfl⟩
  · exact .worker rfl ⟨rfl, rfl, rfl, rfl, rfl⟩ (by simp) (by simp [Task.isWorker]) rfl
  · exact .worker rfl (.refl c) (by simp) (by simp) rfl

theorem turn_give {c : Connection} {drain : Nat} {batch : Bytes} :
    Turn c (.give drain batch) (c.stepGive drain batch) :=
  .worker rfl (.refl c) (by simp [stepGive, Effect.isAside]) (by simp [stepGive, Task.isWorker]) rfl

theorem exec_turn {c : Connection} {x : Outside} {task : Task} {o : Outcome}
    (h : c.exec x task = some o) : Turn c task o := by
  cases task <;> simp only [exec, Option.some.injEq] at h <;> try subst h
  case connect => exact turn_connect
  case resetChecker => exact .aside rfl ⟨rfl, rfl, rfl, rfl, rfl⟩ (by simp) (by simp) rfl
  case notify => exact .notified
  case requestPermission => exact .requesting
  case permissionRequested n answer =>
    rcases answer with e | ⟨⟩
    · exact .failing .request
    · exact .idle .requested
  case finish => exact .aside rfl (.refl c) (by simp [Effect.isAside]) (by simp) rfl
  case openPort => exact turn_openPort
  case portOpened => exact turn_portOpened
  case setParameters => exact .configuring
  case parametersSet n port answer =>
    rcases answer with e | ⟨⟩
    · exact .failing .parameters
    · exact .configured
  case clearRing => exact .aside rfl ⟨rfl, rfl, rfl, rfl, rfl⟩ (by simp) (by simp) rfl
  case startFeeding => exact .aside rfl ⟨rfl, rfl, rfl, rfl, rfl⟩ (by simp) (by simp) rfl
  case recordReader => exact turn_recordReader
  case startReader => exact turn_startReader
  case startDrain => exact turn_startDrain
  case recordDrain => exact turn_recordDrain
  case fail => exact turn_fail
  case teardown => exact turn_teardown
  case clearListener n =>
    exact .aside rfl (sameLife_modifyReader c n fun r => r.setListener none) (by simp) (by simp) rfl
  case stopReader => exact .readerStopped
  case unsubscribe => exact .unsubscribed
  case closePort => exact .closed
  case drop => exact .letGo
  case handle => exact turn_handle
  case write => exact turn_write
  case send =>
    exact .aside rfl (.refl c) (by simp [stepSend, Effect.isAside]) (by simp [stepSend]) rfl
  case read => exact turn_read h
  case accept => exact turn_accept
  case check => exact turn_check
  case enqueue => exact turn_enqueue
  case take => exact turn_take
  case deliver => exact turn_deliver h
  case give => exact turn_give
  case delivered => exact .worker rfl ⟨rfl, rfl, rfl, rfl, rfl⟩ (by simp) (by simp) rfl
  case pause => exact .worker rfl (.refl c) (by simp) (by simp [Task.isWorker]) rfl

/-! ## What is left to be done -/

section Leaves

variable {c : Connection} {task : Task} {o : Outcome} {q : Task → Prop}

/-- Where no thread is started, the thread's own tasks are all that is left. -/
theorem mem_leaves {t : Task} {next : List Task} :
    t ∈ (next : Multiset Task) + (([] : List (List Task)).flatten : Multiset Task) ↔ t ∈ next := by
  rw [List.flatten_nil, Multiset.coe_nil, add_zero, Multiset.mem_coe]

theorem mem_leaves_one {t u : Task} :
    t ∈ (([u] : List Task) : Multiset Task) + (([] : List (List Task)).flatten : Multiset Task) ↔
      t = u := by
  rw [mem_leaves, List.mem_singleton]

/-- A read thread or a drain leaves its own work, and the end of the attempt whose error it told. -/
theorem leaves_of_worker
    (hn : ∀ t ∈ o.next, t.isWorker ∨ ∃ number n e, c.dropped = false ∧
      task = .read number (.telling n e) ∧ t = .teardown (some n))
    (hs : o.started = []) (hworker : ∀ t : Task, t.isWorker → q t)
    (hteardown : ∀ n, c.dropped = false → q (.teardown (some n))) :
    ∀ t ∈ (o.next : Multiset Task) + (o.started.flatten : Multiset Task), q t := by
  intro t ht
  rw [hs, mem_leaves] at ht
  rcases hn t ht with hw | ⟨number, n, e, held, _, rfl⟩
  · exact hworker t hw
  · exact hteardown n held

/-- A step aside leaves nothing, or the sending of what was to be written. -/
theorem leaves_of_aside
    (hn : ∀ t ∈ o.next, ∃ data port, task = .write data ∧ t = .send port data)
    (hs : o.started = []) (hsend : ∀ data port, task = .write data → q (.send port data)) :
    ∀ t ∈ (o.next : Multiset Task) + (o.started.flatten : Multiset Task), q t := by
  intro t ht
  rw [hs, mem_leaves] at ht
  obtain ⟨data, port, htask, rfl⟩ := hn t ht
  exact hsend data port htask

/-- The end of an attempt leaves what releases its resources, and the callback. -/
theorem leaves_of_end {r : Resources} {n : Nat} {notice : Notice}
    (hrelease : ∀ t : Task, t.isRelease → q t) (hnotify : q (.notify n notice)) :
    ∀ t ∈ ((releaseTasks r ++ [.notify n notice] : List Task) : Multiset Task) +
      (([] : List (List Task)).flatten : Multiset Task), q t := by
  intro t ht
  rw [mem_leaves, List.mem_append, List.mem_singleton] at ht
  rcases ht with ht | rfl
  · exact hrelease t (isRelease_of_mem ht)
  · exact hnotify

theorem leaves_of_drop {r : Resources} (hrelease : ∀ t : Task, t.isRelease → q t) :
    ∀ t ∈ (releaseTasks r : Multiset Task) + (([] : List (List Task)).flatten : Multiset Task),
      q t := by
  intro t ht
  rw [mem_leaves] at ht
  exact hrelease t (isRelease_of_mem ht)

theorem Turn.started_of_worker (h : Turn c task o) (hw : task.isWorker) : o.started = [] := by
  cases h with
  | worker _ _ _ _ hs | aside _ _ _ _ hs => exact hs
  | readerStarted | drainStarted => cases hw
  | _ => rfl

/-- What is no work of a read thread or a drain leaves none either, but where it starts such a
thread. -/
theorem Turn.leaves_workers (h : Turn c task o) (ht : task.isWorker = false) :
    ∀ t ∈ (o.next : Multiset Task) + (o.started.flatten : Multiset Task), t.isWorker = true →
      (∃ number, t = .read number .checking) ∨ ∃ drain, t = .take drain := by
  have hno : ∀ t : Task, t.isWorker = false → t.isWorker = true →
      (∃ number, t = .read number .checking) ∨ ∃ drain, t = .take drain := by
    intro t hf ht
    rw [hf] at ht
    cases ht
  have hrelease : ∀ t : Task, t.isRelease = true → t.isWorker = false := by
    intro t hr
    cases t <;> first | rfl | cases hr
  cases h with
  | worker hw =>
    rw [ht] at hw
    cases hw
  | aside _ _ _ hn hs => exact leaves_of_aside hn hs fun _ _ _ => hno _ rfl
  | failed | torn => exact leaves_of_end (fun t hr => hno t (hrelease t hr)) (hno _ rfl)
  | letGo => exact leaves_of_drop fun t hr => hno t (hrelease t hr)
  | @begun _ permitted => cases permitted <;> simp [Task.isWorker]
  | _ => simp [Task.isWorker]

end Leaves

/-! ## A drain that was stopped -/

theorem length_stopDrain (c : Connection) (drain : Nat) :
    (c.stopDrain drain).drains.length = c.drains.length := List.length_modify ..

theorem length_takeResources (c : Connection) :
    c.takeResources.2.drains.length = c.drains.length := by
  unfold takeResources
  rcases h : c.session.resources.drain with _ | d
  · simp [h]
  · simp only [h]
    exact length_stopDrain _ d

/-- No step makes a drain go on that was stopped. -/
theorem Turn.drains_stay {c : Connection} {task : Task} {o : Outcome} (h : Turn c task o) {d : Nat}
    (hd : d < c.drains.length) : d < o.connection.drains.length ∧
      (o.connection.drainRuns d = true → c.drainRuns d = true) := by
  have htake : ∀ {b : Bool}, (if c.session.resources.drain = some d then false else b) = true →
      b = true := by
    intro b hb
    split at hb
    · cases hb
    · exact hb
  cases h with
  | worker _ hc => exact ⟨by rw [hc.drains]; exact hd, fun hr => drainRuns_congr hc.drains d ▸ hr⟩
  | aside _ hc => exact ⟨by rw [hc.drains]; exact hd, fun hr => drainRuns_congr hc.drains d ▸ hr⟩
  | drainStarted =>
    refine ⟨?_, ?_⟩
    · rw [List.length_append]
      omega
    · intro hr
      rw [drainRuns_new _ _ rfl, if_neg (by omega)] at hr
      exact hr
  | drainOrphaned =>
    refine ⟨by rw [length_stopDrain]; exact hd, ?_⟩
    intro hr
    rw [drainRuns_stopDrain] at hr
    split at hr
    · cases hr
    · exact hr
  | failed | torn =>
    refine ⟨(length_takeResources c).symm ▸ hd, ?_⟩
    intro hr
    rw [drainRuns_ended] at hr
    exact htake hr
  | letGo =>
    refine ⟨(length_takeResources c).symm ▸ hd, ?_⟩
    intro hr
    exact htake (drainRuns_takeResources c d ▸ hr)
  | _ => exact ⟨hd, id⟩

/-! ## What only its own tasks change -/

/-- A task that makes a reader or changes one. -/
def Task.isOfReader : Task → Bool
  | .recordReader .. | .startReader .. | .read .. | .clearListener _ | .stopReader _ => true
  | _ => false

/-- The marker, the checker and the readers are changed by the tasks that are for them. -/
structure Untouched (c d : Connection) (task : Task) : Prop where
  feeding : (∀ n, task ≠ .startFeeding n) → d.feeding = c.feeding
  checker : task ≠ .resetChecker → (∀ bytes, task ≠ .check bytes) → d.checker = c.checker
  readers : task.isOfReader = false → d.readers = c.readers

theorem untouched_of_same {c d : Connection} {task : Task} (hf : d.feeding = c.feeding)
    (hc : d.checker = c.checker) (hr : d.readers = c.readers) : Untouched c d task :=
  ⟨fun _ => hf, fun _ _ => hc, fun _ => hr⟩

theorem untouched_takeResources (c : Connection) (task : Task) :
    Untouched c c.takeResources.2 task := by
  unfold takeResources
  rcases h : c.session.resources.drain with _ | d <;>
    exact untouched_of_same (by simp [h, stopDrain]) (by simp [h, stopDrain])
      (by simp [h, stopDrain])

theorem untouched_of_worker {c : Connection} {x : Outside} {task : Task} {o : Outcome}
    (h : c.exec x task = some o) (ht : task.isWorker) : Untouched c o.connection task := by
  cases task <;> simp only [Task.isWorker, Bool.false_eq_true] at ht <;>
    simp only [exec, Option.some.injEq] at h <;> try subst h
  case read number point =>
    obtain ⟨_, _, _, _, _, rfl⟩ := stepRead_eq h
    exact ⟨fun _ => rfl, fun _ _ => rfl, nofun⟩
  case accept => unfold stepAccept; split <;> exact untouched_of_same rfl rfl rfl
  case check =>
    unfold stepCheck
    split <;> exact ⟨fun _ => rfl, fun _ hc => absurd rfl (hc _), fun _ => rfl⟩
  case enqueue => unfold stepEnqueue; split <;> exact untouched_of_same rfl rfl rfl
  case take => unfold stepTake; split <;> exact untouched_of_same rfl rfl rfl
  case deliver =>
    rcases stepDeliver_eq h with ⟨_, rfl⟩ | ⟨_, rfl⟩ <;> exact untouched_of_same rfl rfl rfl
  case give => exact untouched_of_same rfl rfl rfl
  case delivered => exact untouched_of_same rfl rfl rfl
  case pause => exact untouched_of_same rfl rfl rfl

theorem untouched_of_exec {c : Connection} {x : Outside} {task : Task} {o : Outcome}
    (h : c.exec x task = some o) : Untouched c o.connection task := by
  cases exec_turn h with
  | worker hw => exact untouched_of_worker h hw
  | aside ha =>
    cases task <;> simp only [Task.isAside, Bool.false_eq_true] at ha <;>
      simp only [exec, Option.some.injEq] at h <;> subst h
    case startFeeding => exact ⟨fun hf => absurd rfl (hf _), fun _ _ => rfl, fun _ => rfl⟩
    case resetChecker => exact ⟨fun _ => rfl, fun hc _ => absurd rfl hc, fun _ => rfl⟩
    case clearListener => exact ⟨fun _ => rfl, fun _ _ => rfl, nofun⟩
    case write => unfold stepWrite; split <;> exact untouched_of_same rfl rfl rfl
    all_goals exact untouched_of_same rfl rfl rfl
  | failed | torn | letGo =>
    have hsame := untouched_takeResources c .drop
    exact untouched_of_same (hsame.feeding nofun) (hsame.checker nofun nofun) (hsame.readers rfl)
  | readerRecorded | readerOrphaned | readerStarted | readerStopped =>
    exact ⟨fun _ => rfl, fun _ _ => rfl, nofun⟩
  | _ => exact untouched_of_same rfl rfl rfl

end SerialLink.Connection
