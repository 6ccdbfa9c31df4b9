-- A connection over a host and a port that follow a script. The port keeps what
-- was written to it, so the writes of any history can be compared with what
-- reached the device: a write went out if its call says so, and not otherwise,
-- and in the order of the calls where no two writes overlap.
import SerialLink.Port.Scripted
import SerialLink.Proofs.Connection.Undisturbed

namespace SerialLink.Connection

/-! ## A connection and its scripted host -/

/-- What happens next: a move of the connection, or a turn of the script. -/
inductive Deed
  | move (move : Move)
  | push (chunk : Bytes)
  | pushError (e : PortError)
  | unplug
  | reopen
  | failWrites
  | failParameters
  | grant
  | failOpen (e : PortError)

/-- A connection, the host that opens its device, and the one port that the host hands out. -/
structure Rig where
  log : Log
  host : ScriptedHost
  port : ScriptedPort

/-- The same move with other answers from outside. -/
def Move.answeredBy (f : Outside → Outside) : Move → Move
  | .call begun x => .call begun (f x)
  | .event heard x => .event heard (f x)
  | .readError attempt x => .readError attempt (f x)
  | .step thread x => .step thread (f x)

namespace Rig

def connection (r : Rig) : Connection := r.log.history.machine.connection

/-- What host and port answer now. Subscriptions and threads are not theirs to give. -/
def answers (r : Rig) (x : Outside) : Outside :=
  { x with
    permitted := r.host.permitted
    requestPermission := .ok ()
    openPort := fun kind => (r.host.openPort r.connection.device kind).1
    packetSize := fun _ => r.port.packetSize
    setParameters := fun _ parameters => (r.port.setParameters parameters).1
    write := fun _ data => (r.port.write data).1
    read := fun _ size => (r.port.read size).1 }

/-- What an effect of the connection does to host and port. -/
def apply (r : Rig) : Effect → Rig
  | .permissionRequested => { r with host := r.host.requestPermission }
  | .opening kind => { r with host := (r.host.openPort r.connection.device kind).2 }
  | .parametersSet _ parameters => { r with port := (r.port.setParameters parameters).2 }
  | .closed _ => { r with port := r.port.close }
  | .wrote _ data _ => { r with port := (r.port.write data).2 }
  | .readFrom _ size => { r with port := (r.port.read size).2 }
  | _ => r

/-- Makes a move if it can be made now. -/
def extendMove (r : Rig) (move : Move) : Rig :=
  match r.log.history.machine.move move with
  | some (entry, _) => { entry.effects.foldl apply r with log := r.log.extend move }
  | none => r

def extend (r : Rig) : Deed → Rig
  | .move move => r.extendMove (move.answeredBy r.answers)
  | .push chunk => { r with port := r.port.push chunk }
  | .pushError e => { r with port := r.port.pushError e }
  | .unplug => { r with port := r.port.close }
  | .reopen => { r with port := r.port.reopen }
  | .failWrites => { r with port := { r.port with failsWrites := true } }
  | .failParameters => { r with port := { r.port with refusesParameters := true } }
  | .grant => { r with host := r.host.grant }
  | .failOpen e => { r with host := { r.host with openError := some e } }

/-- The connection that does these deeds over a host and a port. -/
def of (c : Connection) (host : ScriptedHost) (port : ScriptedPort) (deeds : List Deed) : Rig :=
  deeds.foldl extend { log := Log.of c [], host, port }

theorem of_snoc (c : Connection) (host : ScriptedHost) (port : ScriptedPort) (deeds : List Deed)
    (deed : Deed) : of c host port (deeds ++ [deed]) = (of c host port deeds).extend deed := by
  rw [of, List.foldl_append]
  rfl

end Rig

/-! ## The port's record -/

section Port

variable {p : ScriptedPort}

theorem written_read (p : ScriptedPort) (size : Nat) : (p.read size).2.written = p.written := by
  unfold ScriptedPort.read
  repeat' split
  all_goals rfl

theorem written_setParameters (p : ScriptedPort) (parameters : LineParameters) :
    (p.setParameters parameters).2.written = p.written := by
  unfold ScriptedPort.setParameters
  split <;> rfl

/-- A write is recorded whole, or it fails and nothing is recorded. -/
theorem written_write (p : ScriptedPort) (data : Bytes) :
    (p.write data).1 = .ok data.length ∧ (p.write data).2.written = p.written ++ [data] ∨
      (∃ e, (p.write data).1 = .error e) ∧ (p.write data).2.written = p.written := by
  unfold ScriptedPort.write
  split
  · exact Or.inr ⟨⟨_, rfl⟩, rfl⟩
  · split
    · exact Or.inr ⟨⟨_, rfl⟩, rfl⟩
    · exact Or.inl ⟨rfl, rfl⟩

theorem written_apply {r : Rig} {e : Effect} (h : ∀ data, e.mark? data = none) :
    (r.apply e).port.written = r.port.written := by
  cases e with
  | wrote => cases h []
  | parametersSet => exact written_setParameters ..
  | readFrom => exact written_read ..
  | _ => rfl

theorem written_applyAll {effects : List Effect} (r : Rig)
    (h : ∀ e ∈ effects, ∀ data, e.mark? data = none) :
    (effects.foldl Rig.apply r).port.written = r.port.written := by
  induction effects generalizing r with
  | nil => rfl
  | cons e effects ih =>
    rw [List.foldl_cons, ih _ fun f hf => h f (List.mem_cons_of_mem _ hf)]
    exact written_apply (h e (List.mem_cons_self ..))

end Port

/-! ## One move -/

theorem answered_append (marks more : List (Nat × Mark)) :
    answered (marks ++ more) = answered marks ++ answered more := List.filterMap_append

/-- The record is what came back without an error, each with its length. -/
structure Rig.Records (r : Rig) (before : List Bytes) : Prop where
  written : r.port.written = before ++ (answered r.log.marks).map Prod.snd
  length : ∀ thread data n, (thread, Mark.returned data (.ok n)) ∈ r.log.marks → n = data.length

/-- A step puts into the record what it says that it did. -/
structure Rig.Told (r : Rig) (e : Entry) : Prop where
  written : ∀ thread, (e.effects.foldl Rig.apply r).port.written =
    r.port.written ++ (answered (e.marks.map (thread, ·))).map Prod.snd
  length : ∀ data n, Mark.returned data (.ok n) ∈ e.marks → n = data.length

theorem told_of_other {r : Rig} {x : Outside} {task : Task} {o : Outcome} (move : Move)
    (ho : r.connection.exec x task = some o) (ht : task.isWrite = false) :
    r.Told ⟨move, r.connection, task, o.effects, o.connection⟩ := by
  have hu := unwritten_of_exec ho ht
  have hmarks : Entry.marks ⟨move, r.connection, task, o.effects, o.connection⟩ = [] :=
    hu.marks ht move o.connection
  constructor
  · intro thread
    rw [hmarks, written_applyAll r hu.effects]
    simp [answered]
  · simp [hmarks]

theorem told_of_write {r : Rig} {x : Outside} {data : Bytes} {o : Outcome} (move : Move)
    (ho : r.connection.exec x (.write data) = some o) :
    r.Told ⟨move, r.connection, .write data, o.effects, o.connection⟩ := by
  obtain rfl := Option.some.inj ho
  rcases stepWrite_eq r.connection data with ⟨_, _, _, heq⟩ | ⟨_, heq⟩ <;> rw [heq] <;>
    constructor <;> simp [Entry.marks, Effect.mark?, answered, answer?, Rig.apply]

theorem answers_write (r : Rig) (x : Outside) (port : Nat) (data : Bytes) :
    (r.answers x).write port data = (r.port.write data).1 := rfl

theorem told_of_send {r : Rig} {x : Outside} {port : Nat} {data : Bytes} {o : Outcome}
    (move : Move) (ho : r.connection.exec (r.answers x) (.send port data) = some o) :
    r.Told ⟨move, r.connection, .send port data, o.effects, o.connection⟩ := by
  have heq : o = r.connection.stepSend (r.answers x) port data := (Option.some.inj ho).symm
  generalize hanswer : ((r.answers x).write port data).mapError ConnectionError.port = answer
  have hmarks : Entry.marks ⟨move, r.connection, .send port data, o.effects, o.connection⟩ =
      [.sent port data r.connection.config.writeTimeout, .returned data answer] := by
    rw [heq, ← hanswer]
    rfl
  have hport : (o.effects.foldl Rig.apply r).port = (r.port.write data).2 := by
    rw [heq]
    rfl
  rw [answers_write] at hanswer
  rcases written_write r.port data with ⟨hok, hwritten⟩ | ⟨⟨e, herr⟩, hwritten⟩
  · rw [hok] at hanswer
    subst hanswer
    constructor
    · intro thread
      rw [hport, hmarks, hwritten]
      rfl
    · rw [hmarks]
      simp [Except.mapError]
  · rw [herr] at hanswer
    subst hanswer
    constructor
    · intro thread
      rw [hport, hmarks, hwritten]
      exact (List.append_nil _).symm
    · rw [hmarks]
      simp [Except.mapError]

theorem outside_answeredBy (move : Move) (f : Outside → Outside) :
    (move.answeredBy f).outside = f move.outside := by
  cases move <;> rfl

theorem told_of_move {timeout : Nat} {r : Rig} (h : r.log.Kept timeout) {move : Move} {e : Entry}
    {m' : Machine}
    (hm : r.log.history.machine.move (move.answeredBy r.answers) = some (e, m')) : r.Told e := by
  obtain ⟨ran, he, -, -, -⟩ := makes_of_move hm
  rename_i task _ o
  rw [outside_answeredBy] at ran
  have htask := h.task_of_move hm
  rw [he] at htask ⊢
  rcases htask with hother | ⟨data, hwrite⟩ | ⟨port, data, hsend⟩
  · exact told_of_other _ ran hother
  · obtain rfl : task = .write data := hwrite
    exact told_of_write _ ran
  · obtain rfl : task = .send port data := hsend
    exact told_of_send _ ran

theorem Rig.Records.move {timeout : Nat} {r : Rig} {before : List Bytes} (h : r.Records before)
    (hkept : r.log.Kept timeout) (move : Move) :
    (r.extendMove (move.answeredBy r.answers)).Records before := by
  unfold Rig.extendMove
  split
  case h_2 => exact h
  case h_1 e m' hm =>
    have htold := told_of_move hkept hm
    have hmarks : (r.log.extend (move.answeredBy r.answers)).marks = r.log.marks ++
        e.marks.map (r.log.history.machine.threadOf (move.answeredBy r.answers), ·) := by
      rw [Log.extend, hm]
    constructor
    · dsimp only
      rw [htold.written, hmarks, answered_append, List.map_append, h.written, List.append_assoc]
    · intro thread data n hmem
      dsimp only at hmem
      rw [hmarks] at hmem
      rcases List.mem_append.mp hmem with hmem | hmem
      · exact h.length thread data n hmem
      · obtain ⟨m, hm, heq⟩ := List.mem_map.mp hmem
        obtain ⟨-, rfl⟩ := Prod.mk.inj heq
        exact htold.length data n hm

/-! ## Any deeds -/

/-- The log of a rig is one of the connection alone, with the answers of host and port. -/
theorem log_of_deeds (c : Connection) (host : ScriptedHost) (port : ScriptedPort)
    (deeds : List Deed) : ∃ moves, (Rig.of c host port deeds).log = Log.of c moves := by
  induction deeds using List.reverseRecOn with
  | nil => exact ⟨[], rfl⟩
  | append_singleton deeds deed ih =>
    obtain ⟨moves, hlog⟩ := ih
    rw [Rig.of_snoc]
    cases deed with
    | move move =>
      unfold Rig.extend Rig.extendMove
      dsimp only
      split
      · refine ⟨moves ++ [move.answeredBy (Rig.of c host port deeds).answers], ?_⟩
        rw [Log.of_snoc, ← hlog]
      · exact ⟨moves, hlog⟩
    | _ => exact ⟨moves, hlog⟩

theorem records_of_deeds (device : DeviceInfo) (config : ConnectionConfig) (prober : Prober)
    (host : ScriptedHost) (port : ScriptedPort) (deeds : List Deed) :
    (Rig.of (.new device config prober) host port deeds).Records port.written := by
  induction deeds using List.reverseRecOn with
  | nil => exact ⟨by simp [Rig.of, Log.of, answered], by simp [Rig.of, Log.of]⟩
  | append_singleton deeds deed ih =>
    rw [Rig.of_snoc]
    cases deed with
    | move move =>
      obtain ⟨moves, hlog⟩ := log_of_deeds (.new device config prober) host port deeds
      have hkept := kept_of_moves device config prober moves
      rw [← hlog] at hkept
      exact ih.move hkept move
    | _ => exact ⟨ih.written, ih.length⟩

/-! ## The law -/

/-- Writes keep to themselves, whatever host and port answer. -/
structure WritesApart (c : Connection) (l : Log) : Prop where
  /-- A write is refused where the session is not connected as it is called, and reaches no port.
  Otherwise it goes to the port of that session and tells what the port answers. -/
  course : ∀ thread, WriteCourse c.config.writeTimeout (marksOf l.marks thread)
    (l.history.machine.threads[thread]?.getD [])
  /-- A write that is under way need not wait to come back. -/
  returns : ∀ thread port data, l.history.machine.threads[thread]? = some [.send port data] →
    ∀ x, (l.history.machine.move (.step thread x)).isSome
  /-- No step of a write changes anything of the connection or makes a callback. -/
  inert : ∀ e ∈ l.history.entries, e.Inert
  /-- Without its writes the connection would have come to the same, step by step. -/
  undisturbed : ∃ others : List Move, (∀ move ∈ others, move.isWrite = false) ∧
    Mirrors l.history (History.of c others) ∧
    (History.of c others).callbacks = l.history.callbacks

/-- What the port recorded is what the writes say that went out. -/
structure WritesRecorded (before : List Bytes) (r : Rig) : Prop extends r.Records before where
  /-- Each write that came back without an error is in the record once. -/
  once : (answered r.log.marks).Perm
    ((calls r.log.marks).filter fun w => wentOut r.log.marks w.1)
  /-- Two writes go out in the order of their calls, unless they were under way at one time. -/
  ordered : (answered r.log.marks).Pairwise fun a b => ¬ Precedes r.log.marks b.1 a.1

theorem writesApart_of_moves (device : DeviceInfo) (config : ConnectionConfig) (prober : Prober)
    (moves : List Move) :
    WritesApart (.new device config prober) (Log.of (.new device config prober) moves) := by
  constructor
  case course => exact (kept_of_moves device config prober moves).course
  case returns =>
    intro thread port data hthread x
    have hmove : (Log.of (.new device config prober) moves).history.machine.move
        (.step thread x) = _ := enter_of_exec hthread rfl
    rw [hmove]
    rfl
  case inert =>
    rw [Log.history_of]
    exact inert_of_moves _ moves
  case undisturbed =>
    rw [Log.history_of]
    obtain ⟨others, hothers, hmirror⟩ := mirrors_of_moves device config prober moves
    exact ⟨others, hothers, hmirror, hmirror.callbacks (inert_of_moves _ moves)⟩

theorem kept_of_deeds (device : DeviceInfo) (config : ConnectionConfig) (prober : Prober)
    (host : ScriptedHost) (port : ScriptedPort) (deeds : List Deed) :
    (Rig.of (.new device config prober) host port deeds).log.Kept config.writeTimeout := by
  obtain ⟨moves, hlog⟩ := log_of_deeds (.new device config prober) host port deeds
  rw [hlog]
  exact kept_of_moves device config prober moves

theorem writesRecorded_of_deeds (device : DeviceInfo) (config : ConnectionConfig)
    (prober : Prober) (host : ScriptedHost) (port : ScriptedPort) (deeds : List Deed) :
    WritesRecorded port.written (Rig.of (.new device config prober) host port deeds) := by
  have hkept := kept_of_deeds device config prober host port deeds
  constructor
  case toRecords => exact records_of_deeds device config prober host port deeds
  case once => exact hkept.answered_perm
  case ordered => exact hkept.not_precedes_answered.imp fun hab => hab.2

/-- A write goes out just where the session is connected as it is called, whatever else is under
way; over a scripted port the writes that say so are those in its record, and in the order of their
calls where no two of them were under way at one time. No write disturbs the connection. -/
theorem writes_go_out_just_while_connected (device : DeviceInfo) (config : ConnectionConfig)
    (prober : Prober) :
    (∀ moves : List Move,
      WritesApart (.new device config prober) (Log.of (.new device config prober) moves)) ∧
    ∀ (host : ScriptedHost) (port : ScriptedPort) (deeds : List Deed),
      let r := Rig.of (.new device config prober) host port deeds
      WritesApart (.new device config prober) r.log ∧ WritesRecorded port.written r ∧
      (Successive r.log.marks → r.port.written = port.written ++
        ((calls r.log.marks).filter fun w => wentOut r.log.marks w.1).map Prod.snd) := by
  refine ⟨writesApart_of_moves device config prober, fun host port deeds => ⟨?_, ?_, ?_⟩⟩
  · obtain ⟨moves, hlog⟩ := log_of_deeds (.new device config prober) host port deeds
    rw [hlog]
    exact writesApart_of_moves device config prober moves
  · exact writesRecorded_of_deeds device config prober host port deeds
  · intro hone
    rw [(records_of_deeds device config prober host port deeds).written,
      (kept_of_deeds device config prober host port deeds).answered_eq hone]

/-- Of a write before the connection is up and two behind it, each of which has come back when the
next one is called, the record has the two in the order of their calls. -/
theorem successive_writes_keep_their_order :
    let x : Outside :=
      { subscribe := .ok 1, permitted := true, requestPermission := .ok ()
        openPort := fun _ => .ok (), packetSize := fun _ => 64
        setParameters := fun _ _ => .ok (), write := fun _ data => .ok data.length
        read := fun _ _ => none }
    let moves : List Move := [.call (.write [1]) x, .step 0 x, .call .connect x] ++
      List.replicate 14 (.step 1 x) ++
        [.call (.write [2, 3]) x, .step 4 x, .call (.write [4]) x, .step 5 x]
    let r := Rig.of (.new ⟨"usb", Vendor.ftdi, 0x6001, none, none⟩ {} {}) {} {}
      (moves.map .move)
    Successive r.log.marks ∧ r.port.written = [[2, 3], [4]] := by
  intro x moves
  have hlaw := (writes_go_out_just_while_connected ⟨"usb", Vendor.ftdi, 0x6001, none, none⟩ {} {}).2
    {} {} (moves.map .move)
  generalize hr : Rig.of (.new ⟨"usb", Vendor.ftdi, 0x6001, none, none⟩ {} {}) {} {}
    (moves.map .move) = r at hlaw ⊢
  have hone : Successive r.log.marks := by
    rw [← hr]
    decide +kernel
  have hgone : ((calls r.log.marks).filter fun w => wentOut r.log.marks w.1).map Prod.snd =
      [[2, 3], [4]] := by
    rw [← hr]
    decide +kernel
  exact ⟨hone, (hlaw.2.2 hone).trans hgone⟩

/-- Two writes that are under way at one time may change places: the session is not held while the
port takes the data, so the port may take that of the later call first. -/
theorem overlapping_writes_may_change_places :
    let x : Outside :=
      { subscribe := .ok 1, permitted := true, requestPermission := .ok ()
        openPort := fun _ => .ok (), packetSize := fun _ => 64
        setParameters := fun _ _ => .ok (), write := fun _ data => .ok data.length
        read := fun _ _ => none }
    let moves : List Move := [.call .connect x] ++ List.replicate 14 (.step 0 x) ++
      [.call (.write [2, 3]) x, .call (.write [4]) x, .step 4 x, .step 3 x]
    let r := Rig.of (.new ⟨"usb", Vendor.ftdi, 0x6001, none, none⟩ {} {}) {} {}
      (moves.map .move)
    ((calls r.log.marks).filter fun w => wentOut r.log.marks w.1).map Prod.snd = [[2, 3], [4]] ∧
      r.port.written = [[4], [2, 3]] := by
  decide +kernel

end SerialLink.Connection
