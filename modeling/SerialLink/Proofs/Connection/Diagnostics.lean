-- Diagnostics look on. The checker is shown each chunk in the middle of the
-- read thread's work, but nothing that a connection does hangs on what it
-- makes of it: two runs that differ in diagnostics only go the same way.
import Mathlib.Data.List.Forall2
import SerialLink.Proofs.Connection.History

namespace SerialLink.Connection

/-! ## Without diagnostics -/

/-- The connection with no frames to check, and none checked so far. -/
def plain (c : Connection) : Connection :=
  { c with
    config := { c.config with diagnostics := none }
    checker := none
    totals := { c.totals with frames := {} } }

def Outcome.plain (o : Outcome) : Outcome := { o with connection := o.connection.plain }

section Plain

variable (c : Connection) (x : Outside)

@[simp] theorem plain_session : c.plain.session = c.session := by simp [plain]

@[simp] theorem plain_dropped : c.plain.dropped = c.dropped := by simp [plain]

@[simp] theorem plain_ring : c.plain.ring = c.ring := by simp [plain]

@[simp] theorem plain_readers : c.plain.readers = c.readers := by simp [plain]

@[simp] theorem plain_drains : c.plain.drains = c.drains := by simp [plain]

@[simp] theorem isConnecting_plain (n : Nat) : c.plain.isConnecting n = c.isConnecting n := by
  simp [isConnecting]

@[simp] theorem drainRuns_plain (n : Nat) : c.plain.drainRuns n = c.drainRuns n := by
  simp [drainRuns]

/-! ## Every step goes the same way -/

theorem stopDrain_plain (d : Nat) : c.plain.stopDrain d = (c.stopDrain d).plain := by
  simp [stopDrain, plain]

theorem takeResources_plain :
    c.plain.takeResources = (c.takeResources.1, c.takeResources.2.plain) := by
  unfold takeResources
  rw [plain_session]
  rcases hd : c.session.resources.drain with _ | d <;> simp [hd, plain, stopDrain]

theorem endAttempt_plain (state : ConnectionState) :
    c.plain.endAttempt state = ((c.endAttempt state).1, (c.endAttempt state).2.plain) := by
  unfold endAttempt
  rw [takeResources_plain]
  simp [plain]

theorem connect_plain : c.plain.stepConnect x = (c.stepConnect x).plain := by
  unfold stepConnect
  rw [plain_session]
  split
  · simp [Outcome.plain]
  · split <;> simp [Outcome.plain, plain]

theorem openPort_plain (n : Nat) : c.plain.stepOpenPort x n = (c.stepOpenPort x n).plain := by
  have hsame : c.plain.prober.probe c.plain.device = c.prober.probe c.device := by simp [plain]
  unfold stepOpenPort
  rw [hsame]
  split <;> simp [Outcome.plain, plain]

theorem portOpened_plain (n : Nat) (kind : DriverKind) (answer : Except PortError Unit) :
    c.plain.stepPortOpened n kind answer = (c.stepPortOpened n kind answer).plain := by
  rcases answer with e | ⟨⟩
  · simp [stepPortOpened, Outcome.plain]
  · unfold stepPortOpened
    rw [isConnecting_plain]
    dsimp only
    split <;> simp [Outcome.plain, plain]

theorem recordReader_plain (n port : Nat) :
    c.plain.stepRecordReader x n port = (c.stepRecordReader x n port).plain := by
  unfold stepRecordReader
  rw [isConnecting_plain, plain_readers]
  dsimp only
  split <;> simp [Outcome.plain, plain]

theorem startReader_plain (n number : Nat) :
    c.plain.stepStartReader x n number = (c.stepStartReader x n number).plain := by
  unfold stepStartReader
  rw [plain_readers]
  split
  · simp [Outcome.plain]
  · split <;> simp [Outcome.plain, plain, modifyReader]

theorem startDrain_plain (n : Nat) :
    c.plain.stepStartDrain x n = (c.stepStartDrain x n).plain := by
  unfold stepStartDrain
  split <;> simp [Outcome.plain, plain]

theorem recordDrain_plain (n drain : Nat) :
    c.plain.stepRecordDrain n drain = (c.stepRecordDrain n drain).plain := by
  unfold stepRecordDrain
  rw [isConnecting_plain, stopDrain_plain]
  split <;> simp [Outcome.plain, plain]

theorem fail_plain (n : Nat) (e : ConnectionError) :
    c.plain.stepFail n e = (c.stepFail n e).plain := by
  unfold stepFail
  rw [plain_session, endAttempt_plain]
  split <;> simp [Outcome.plain]

theorem teardown_plain (n : Option Nat) : c.plain.stepTeardown n = (c.stepTeardown n).plain := by
  unfold stepTeardown
  rw [plain_session, endAttempt_plain]
  split <;> simp [Outcome.plain]

theorem handle_plain (kind : DeviceEventKind) :
    c.plain.stepHandle kind = (c.stepHandle kind).plain := by
  unfold stepHandle
  rw [plain_session, plain_dropped]
  split
  · simp [Outcome.plain]
  · cases kind with
    | detached => simp [Outcome.plain]
    | permissionGranted | permissionDenied =>
      dsimp only
      split <;> simp [Outcome.plain, plain]

theorem write_plain (data : Bytes) : c.plain.stepWrite data = (c.stepWrite data).plain := by
  unfold stepWrite
  rw [plain_session]
  split <;> simp [Outcome.plain]

theorem read_plain (number : Nat) (point : Reader.Point Nat) :
    c.plain.stepRead x number point = (c.stepRead x number point).map Outcome.plain := by
  unfold stepRead
  rw [plain_readers, plain_dropped]
  cases ha : c.readers[number]? with
  | none => simp
  | some a =>
    cases hs : a.reader.step (x.read a.port) point with
    | none => simp [hs]
    | some s => simp [hs, Outcome.plain, plain, modifyReader]

theorem accept_plain (n : Nat) (bytes : Bytes) :
    c.plain.stepAccept n bytes = (c.stepAccept n bytes).plain := by
  have hsame : c.plain.feeding = c.feeding := by simp [plain]
  unfold stepAccept
  rw [plain_dropped, hsame]
  split <;> simp [Outcome.plain, plain]

theorem check_plain (bytes : Bytes) : c.plain.stepCheck bytes = (c.stepCheck bytes).plain := by
  have hnone : c.plain.checker = none := by simp [plain]
  unfold stepCheck
  rw [hnone]
  rcases c.checker with _ | checker <;> simp [Outcome.plain, plain]

theorem enqueue_plain (bytes : Bytes) :
    c.plain.stepEnqueue bytes = (c.stepEnqueue bytes).plain := by
  unfold stepEnqueue
  rw [plain_ring]
  split <;> simp [Outcome.plain, plain]

theorem take_plain (drain : Nat) : c.plain.stepTake drain = (c.stepTake drain).plain := by
  unfold stepTake
  rw [drainRuns_plain, plain_ring]
  split <;> simp [Outcome.plain, plain]

theorem deliver_plain (drain : Nat) (batch : Bytes) :
    c.plain.stepDeliver drain batch = (c.stepDeliver drain batch).map Outcome.plain := by
  have hsame : c.plain.delivering = c.delivering := by simp [plain]
  unfold stepDeliver
  rw [hsame, drainRuns_plain]
  split
  · simp
  · split <;> simp [Outcome.plain, plain]

/-- A step without diagnostics is the step with them, apart from them. -/
theorem exec_plain (task : Task) :
    c.plain.exec x task = (c.exec x task).map Outcome.plain := by
  cases task <;> simp only [exec]
  case connect => simp [connect_plain]
  case openPort => simp [openPort_plain]
  case portOpened => simp [portOpened_plain]
  case recordReader => simp [recordReader_plain]
  case startReader => simp [startReader_plain]
  case startDrain => simp [startDrain_plain]
  case recordDrain => simp [recordDrain_plain]
  case fail => simp [fail_plain]
  case teardown => simp [teardown_plain]
  case drop =>
    rw [takeResources_plain]
    simp [Outcome.plain, plain]
  case handle => simp [handle_plain]
  case write => simp [write_plain]
  case send => simp [stepSend, Outcome.plain, plain]
  case clearListener | stopReader => simp [modifyReader, Outcome.plain, plain]
  case read => exact read_plain c x _ _
  case accept => simp [accept_plain]
  case check => simp [check_plain]
  case enqueue => simp [enqueue_plain]
  case take => simp [take_plain]
  case deliver => exact deliver_plain c _ _
  case give => simp [stepGive, Outcome.plain, plain]
  all_goals simp [Outcome.plain, plain]

end Plain

/-! ## Every run goes the same way -/

def Entry.plain (e : Entry) : Entry := { e with before := e.before.plain, after := e.after.plain }

def Machine.plain (m : Machine) : Machine := { m with connection := m.connection.plain }

def History.plain (h : History) : History :=
  { entries := h.entries.map Entry.plain, machine := h.machine.plain }

section Runs

variable (m : Machine)

theorem step_plain (thread : Nat) (x : Outside) :
    m.plain.step thread x = (m.step thread x).map fun s => (s.1, s.2.plain) := by
  unfold Machine.step Machine.plain
  dsimp only
  split
  · rw [exec_plain, Option.map_map, Option.map_map]
    simp [Function.comp_def, Outcome.plain]
  · simp

theorem enter_plain (move : Move) (thread : Nat) (x : Outside) :
    m.plain.enter move thread x =
      (m.enter move thread x).map fun s => (s.1.plain, s.2.plain) := by
  have hnext : m.plain.next? thread = m.next? thread := by simp [Machine.next?, Machine.plain]
  unfold Machine.enter
  rw [hnext, step_plain]
  cases m.next? thread with
  | none => simp
  | some task =>
    cases m.step thread x with
    | none => simp
    | some s => simp [Entry.plain, Machine.plain]

theorem begin_plain (move : Move) (tasks : List Task) (x : Outside) :
    m.plain.begin move tasks x = (m.begin move tasks x).map fun s => (s.1.plain, s.2.plain) := by
  have hspawn : m.plain.spawn tasks = ((m.spawn tasks).1, (m.spawn tasks).2.plain) := by
    simp [Machine.spawn, Machine.plain]
  unfold Machine.begin
  rw [hspawn]
  exact enter_plain _ move _ x

theorem move_plain (move : Move) :
    m.plain.move move = (m.move move).map fun s => (s.1.plain, s.2.plain) := by
  have hdropped : m.plain.connection.dropped = m.connection.dropped := by simp [Machine.plain]
  cases move with
  | call call x =>
    have htakes : m.plain.takesCall call = m.takesCall call := by
      cases call <;> simp [Machine.takesCall, Machine.isFree, Machine.plain]
    unfold Machine.move
    dsimp only
    rw [htakes]
    split
    · exact begin_plain m _ _ x
    · simp
  | event event x =>
    have hdevice : m.plain.connection.device = m.connection.device := by
      simp [Machine.plain, Connection.plain]
    unfold Machine.move
    dsimp only
    rw [hdevice]
    split
    · exact begin_plain m _ _ x
    · simp
  | readError attempt x =>
    unfold Machine.move
    dsimp only
    rw [hdropped]
    split
    · simp
    · exact begin_plain m _ _ x
  | step thread x => exact enter_plain m _ thread x

theorem extend_plain (h : History) (move : Move) : h.plain.extend move = (h.extend move).plain := by
  have hmove : h.plain.machine.move move = _ := move_plain h.machine move
  unfold History.extend
  rw [hmove]
  cases h.machine.move move with
  | none => simp
  | some s => simp [History.plain]

theorem of_plain (c : Connection) (moves : List Move) :
    History.of c.plain moves = (History.of c moves).plain := by
  unfold History.of
  rw [← List.foldl_hom History.plain fun h move => extend_plain h move]
  simp [History.plain, Machine.plain]

end Runs

/-! ## The law -/

/-- Nothing tells two connections apart but their diagnostics. -/
structure SameData (c d : Connection) : Prop where
  session : d.session = c.session
  ring : d.ring = c.ring
  buffered : d.buffered = c.buffered
  received : d.totals.received = c.totals.received
  dropped : d.totals.dropped = c.totals.dropped

/-- Two steps that nothing tells apart: the same task of the same move, with the same callbacks and
their errors, results of calls and batches, from and to connections that hold the same. -/
structure SameStep (e f : Entry) : Prop where
  move : f.move = e.move
  task : f.task = e.task
  effects : f.effects = e.effects
  before : SameData e.before f.before
  after : SameData e.after f.after

/-- Two histories that nothing tells apart, step by step. -/
structure SameRun (h k : History) : Prop where
  steps : List.Forall₂ SameStep h.entries k.entries
  threads : k.machine.threads = h.machine.threads
  now : SameData h.machine.connection k.machine.connection

theorem sameData_of_plain {c d : Connection} (h : c.plain = d.plain) : SameData c d := by
  have hsession := congrArg Connection.session h
  have hring := congrArg Connection.ring h
  have htotals := congrArg Connection.totals h
  simp only [plain_session, plain_ring] at hsession hring
  simp only [plain, Totals.mk.injEq, and_true] at htotals
  constructor
  · exact hsession.symm
  · exact hring.symm
  · unfold buffered
    rw [hring]
  · exact htotals.1.symm
  · exact htotals.2.symm

theorem sameStep_of_plain {e f : Entry} (h : e.plain = f.plain) : SameStep e f := by
  obtain ⟨move, before, task, effects, after⟩ := e
  obtain ⟨move', before', task', effects', after'⟩ := f
  simp only [Entry.plain, Entry.mk.injEq] at h
  obtain ⟨rfl, hbefore, rfl, rfl, hafter⟩ := h
  exact ⟨rfl, rfl, rfl, sameData_of_plain hbefore, sameData_of_plain hafter⟩

theorem sameRun_of_plain {h k : History} (hp : h.plain = k.plain) : SameRun h k := by
  simp only [History.plain, History.mk.injEq, Machine.plain, Machine.mk.injEq] at hp
  obtain ⟨hentries, hconnection, hthreads⟩ := hp
  refine ⟨?_, hthreads.symm, sameData_of_plain hconnection⟩
  rw [← List.forall₂_eq_eq_eq, List.forall₂_map_left_iff, List.forall₂_map_right_iff] at hentries
  exact hentries.imp fun _ _ he => sameStep_of_plain he

/-- Diagnostics change nothing but their own figures: with the same moves, and so with the same
answers from outside and the same order of all threads, a connection goes the same way whatever
frames it checks, if any. -/
theorem diagnostics_only_look_on (device : DeviceInfo) (config : ConnectionConfig)
    (prober : Prober) (a b : Option Stream.Layout) (moves : List Move) :
    SameRun (.of (.new device { config with diagnostics := a } prober) moves)
      (.of (.new device { config with diagnostics := b } prober) moves) := by
  apply sameRun_of_plain
  rw [← of_plain, ← of_plain]
  simp [plain, Connection.new]

end SerialLink.Connection
