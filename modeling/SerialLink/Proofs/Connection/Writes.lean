-- Writes. A call to write is a thread of its own. It looks at the session once,
-- and only a connected one gives it a port to send to; then it sends and comes
-- back. No other thread takes part, so what a thread tells of its write is one
-- of four courses, whatever happens between its two steps.
import SerialLink.Proofs.Connection.Cleanup
import SerialLink.Proofs.Connection.Threads

namespace SerialLink.Connection

/-! ## What a thread tells of its write -/

/-- A task of a write. -/
def Task.isWrite : Task → Bool
  | .write _ | .send .. | .finish (.write _) => true
  | _ => false

/-- The data that a task of a write is about. -/
def Task.payload : Task → Bytes
  | .write data | .send _ data => data
  | _ => []

/-- What is seen of a write. -/
inductive Mark
  /-- The write was called, and the session was like this. -/
  | called (data : Bytes) (session : Session)
  /-- The data went to a port. -/
  | sent (port : Nat) (data : Bytes) (timeout : Nat)
  | returned (data : Bytes) (result : Except ConnectionError Nat)

/-- What an effect tells of a write of this data. -/
def Effect.mark? (data : Bytes) : Effect → Option Mark
  | .wrote port sent timeout => some (.sent port sent timeout)
  | .returned (.write result) => some (.returned data result)
  | _ => none

/-- What a step tells of a write. -/
def Entry.marks (e : Entry) : List Mark :=
  (match e.task with
    | .write data => [Mark.called data e.before.session]
    | _ => []) ++ e.effects.filterMap (Effect.mark? e.task.payload)

/-- A history, and what its threads told of writes, each mark with its thread. -/
structure Log where
  history : History
  marks : List (Nat × Mark) := []

namespace Log

def extend (l : Log) (move : Move) : Log :=
  match l.history.machine.move move with
  | some (entry, machine) =>
    { history := { entries := l.history.entries ++ [entry], machine }
      marks := l.marks ++ entry.marks.map (l.history.machine.threadOf move, ·) }
  | none => l

/-- The log of a connection that makes these moves. -/
def of (c : Connection) (moves : List Move) : Log :=
  moves.foldl extend { history := { machine := { connection := c } } }

theorem of_snoc (c : Connection) (moves : List Move) (move : Move) :
    of c (moves ++ [move]) = (of c moves).extend move := by
  rw [of, List.foldl_append]
  rfl

theorem history_extend (l : Log) (move : Move) :
    (l.extend move).history = l.history.extend move := by
  unfold extend History.extend
  cases l.history.machine.move move <;> rfl

theorem history_of (c : Connection) (moves : List Move) :
    (of c moves).history = History.of c moves := by
  induction moves using List.reverseRecOn with
  | nil => rfl
  | append_singleton moves move ih => rw [of_snoc, History.of_snoc, history_extend, ih]

end Log

/-- What one thread told. -/
def marksOf (marks : List (Nat × Mark)) (thread : Nat) : List Mark :=
  marks.filterMap fun m => if m.1 = thread then some m.2 else none

theorem marksOf_append (marks more : List (Nat × Mark)) (thread : Nat) :
    marksOf (marks ++ more) thread = marksOf marks thread ++ marksOf more thread :=
  List.filterMap_append

theorem marksOf_same (marks : List Mark) (thread : Nat) :
    marksOf (marks.map (thread, ·)) thread = marks := by
  simp [marksOf, List.filterMap_map]

theorem marksOf_other {thread k : Nat} (marks : List Mark) (h : thread ≠ k) :
    marksOf (marks.map (thread, ·)) k = [] := by
  simp [marksOf, List.filterMap_map, h]

theorem mem_marksOf {marks : List (Nat × Mark)} {thread : Nat} {m : Mark} :
    m ∈ marksOf marks thread ↔ (thread, m) ∈ marks := by
  simp [marksOf, and_comm]

/-! ## One step -/

section OneStep

variable {c : Connection} {x : Outside} {task : Task} {o : Outcome}

/-- What is no task of a write tells of none, and leads to none. -/
structure Outcome.Unwritten (o : Outcome) : Prop where
  effects : ∀ e ∈ o.effects, ∀ data, e.mark? data = none
  next : ∀ t ∈ o.next, t.isWrite = false
  started : ∀ l ∈ o.started, ∀ t ∈ l, t.isWrite = false

theorem isWrite_release {r : Resources} {t : Task} (h : t ∈ releaseTasks r) :
    t.isWrite = false := by
  rcases mem_releaseTasks.mp h with ⟨_, _, rfl | rfl⟩ | ⟨_, _, rfl⟩ | ⟨_, _, rfl⟩ <;> rfl

theorem isWrite_end {r : Resources} {n : Nat} {notice : Notice} {t : Task}
    (h : t ∈ releaseTasks r ++ [.notify n notice]) : t.isWrite = false := by
  rcases List.mem_append.mp h with h | h
  · exact isWrite_release h
  · rw [List.mem_singleton.mp h]
    rfl

theorem unwritten_of_exec (ho : c.exec x task = some o) (ht : task.isWrite = false) :
    o.Unwritten := by
  have quiet : ∀ {d : Connection} {next : List Task}, (∀ t ∈ next, t.isWrite = false) →
      Outcome.Unwritten { connection := d, next } := fun hnext =>
    ⟨by simp, hnext, by simp⟩
  cases task <;> simp only [exec, Option.some.injEq] at ho <;> try subst ho
  case write => cases ht
  case send => cases ht
  case connect =>
    unfold stepConnect
    repeat' split
    all_goals constructor <;> simp [Effect.mark?, Task.isWrite]
  case finish result =>
    cases result with
    | connect => constructor <;> simp [Effect.mark?]
    | write => cases ht
  case permissionRequested answer => cases answer <;> apply quiet <;> simp [Task.isWrite]
  case parametersSet answer => cases answer <;> apply quiet <;> simp [Task.isWrite]
  case openPort =>
    unfold stepOpenPort
    split <;> constructor <;> simp [Effect.mark?, Task.isWrite]
  case portOpened =>
    unfold stepPortOpened
    repeat' split
    all_goals apply quiet; simp [Task.isWrite]
  case recordReader =>
    unfold stepRecordReader
    dsimp only
    split <;> apply quiet <;> simp [Task.isWrite]
  case startReader =>
    unfold stepStartReader
    repeat' split
    all_goals constructor <;> simp [Task.isWrite]
  case startDrain =>
    unfold stepStartDrain
    split <;> constructor <;> simp [Task.isWrite]
  case recordDrain =>
    unfold stepRecordDrain
    split <;> apply quiet <;> simp [Task.isWrite]
  case fail =>
    unfold stepFail
    split
    · exact quiet fun _ => isWrite_end
    · exact quiet (by simp)
  case teardown =>
    unfold stepTeardown
    split
    · exact quiet fun _ => isWrite_end
    · exact quiet (by simp)
  case drop => exact quiet fun _ => isWrite_release
  case handle kind =>
    cases kind <;> unfold stepHandle <;> repeat' split
    all_goals apply quiet; simp [Task.isWrite]
  case read =>
    obtain ⟨_, next, _, _, _, rfl⟩ := stepRead_eq ho
    refine ⟨?_, ?_, by simp⟩
    · intro e he
      dsimp only at he
      split at he
      · rw [List.mem_singleton.mp he]
        exact fun _ => rfl
      · cases he
    · intro t hmem
      rcases mem_afterRead hmem with ⟨_, rfl⟩ | ⟨_, _, rfl⟩ | ⟨_, _, _, _, _, rfl⟩ <;> rfl
  case accept =>
    unfold stepAccept
    split <;> apply quiet <;> simp [Task.isWrite]
  case check =>
    unfold stepCheck
    split <;> apply quiet <;> simp
  case enqueue =>
    unfold stepEnqueue
    split <;> apply quiet <;> simp
  case take =>
    unfold stepTake
    split
    · apply quiet
      intro t hmem
      rw [List.mem_singleton.mp hmem]
      split <;> rfl
    · exact quiet (by simp)
  case deliver =>
    rcases stepDeliver_eq ho with ⟨_, rfl⟩ | ⟨_, rfl⟩ <;> apply quiet <;> simp [Task.isWrite]
  case give => constructor <;> simp [stepGive, Effect.mark?, Task.isWrite]
  all_goals constructor <;> simp [Effect.mark?, Task.isWrite]

theorem Outcome.Unwritten.marks (h : o.Unwritten) (ht : task.isWrite = false) (move : Move)
    (d : Connection) : Entry.marks ⟨move, c, task, o.effects, d⟩ = [] := by
  have hnone : o.effects.filterMap (Effect.mark? task.payload) = [] :=
    List.filterMap_eq_nil_iff.mpr fun e he => h.effects e he _
  unfold Entry.marks
  rw [hnone]
  cases task <;> first | rfl | cases ht

/-- How far a write may have come: what its thread told, and what it has yet to do. -/
inductive WriteCourse (timeout : Nat) : List Mark → List Task → Prop
  /-- The thread is no write. -/
  | other {tasks : List Task} (other : ∀ t ∈ tasks, t.isWrite = false) :
    WriteCourse timeout [] tasks
  | refused {data : Bytes} {session : Session} (down : session.state ≠ .connected) :
    WriteCourse timeout [.called data session, .returned data (.error .notConnected)] []
  | underWay {data : Bytes} {session : Session} {port : Nat} (up : session.state = .connected)
    (own : session.resources.port = some port) :
    WriteCourse timeout [.called data session] [.send port data]
  | answered {data : Bytes} {session : Session} {port : Nat} {answer : Except PortError Nat}
    (up : session.state = .connected) (own : session.resources.port = some port) :
    WriteCourse timeout
      [.called data session, .sent port data timeout, .returned data (answer.mapError .port)] []

theorem stepWrite_eq (c : Connection) (data : Bytes) :
    (∃ port, c.session.state = .connected ∧ c.session.resources.port = some port ∧
      c.stepWrite data = { connection := c, next := [.send port data] }) ∨
    ((c.session.state = .connected → c.session.resources.port = none) ∧
      c.stepWrite data =
        { connection := c, effects := [.returned (.write (.error .notConnected))] }) := by
  unfold stepWrite
  split
  · rename_i port hstate hport
    exact Or.inl ⟨port, hstate, hport, rfl⟩
  · rename_i hno
    refine Or.inr ⟨fun hstate => ?_, rfl⟩
    rcases hport : c.session.resources.port with _ | port
    · rfl
    · exact absurd hport (hno port hstate)

/-- A write that is called where a connected session has a port is refused or under way. -/
theorem course_of_call {data : Bytes} (ho : c.exec x (.write data) = some o)
    (hport : c.session.state = .connected → c.session.resources.port.isSome) (timeout : Nat)
    (move : Move) :
    WriteCourse timeout (Entry.marks ⟨move, c, .write data, o.effects, o.connection⟩) o.next ∧
      o.started = [] := by
  obtain rfl := Option.some.inj ho
  rcases stepWrite_eq c data with ⟨port, hup, hown, heq⟩ | ⟨hnone, heq⟩
  · rw [heq]
    exact ⟨.underWay hup hown, rfl⟩
  · rw [heq]
    refine ⟨.refused fun hup => ?_, rfl⟩
    have hsome := hport hup
    rw [hnone hup] at hsome
    cases hsome

/-- A step of a thread takes its write further, or the thread is no write. -/
theorem WriteCourse.step {timeout : Nat} {marks : List Mark} {rest : List Task}
    (h : WriteCourse timeout marks (task :: rest)) (ho : c.exec x task = some o)
    (hlimit : c.config.writeTimeout = timeout) (move : Move) :
    WriteCourse timeout (marks ++ Entry.marks ⟨move, c, task, o.effects, o.connection⟩)
        (o.next ++ rest) ∧ ∀ l ∈ o.started, ∀ t ∈ l, t.isWrite = false := by
  cases h with
  | other hother =>
    have ht := hother task (List.mem_cons_self ..)
    have hu := unwritten_of_exec ho ht
    rw [hu.marks ht]
    refine ⟨.other fun t hmem => ?_, hu.started⟩
    rcases List.mem_append.mp hmem with hmem | hmem
    · exact hu.next t hmem
    · exact hother t (List.mem_cons_of_mem _ hmem)
  | underWay up own =>
    obtain rfl := Option.some.inj ho
    subst hlimit
    exact ⟨.answered up own, by simp [stepSend]⟩

end OneStep

/-! ## One move -/

/-- Every thread keeps to the course of a write, and only threads that are there tell of one. -/
structure Log.Kept (timeout : Nat) (l : Log) : Prop where
  course : ∀ k, WriteCourse timeout (marksOf l.marks k) (l.history.machine.threads[k]?.getD [])
  born : ∀ m ∈ l.marks, m.1 < l.history.machine.threads.length

theorem Log.Kept.unborn {timeout k : Nat} {l : Log} (h : l.Kept timeout)
    (hk : l.history.machine.threads.length ≤ k) : marksOf l.marks k = [] := by
  apply List.eq_nil_iff_forall_not_mem.mpr
  intro m hmem
  have := h.born _ (mem_marksOf.mp hmem)
  dsimp only at this
  omega

/-- What the thread of a move has behind it and before it, once the move is made. -/
theorem Log.Kept.course_of_thread {timeout : Nat} {l : Log} (h : l.Kept timeout) {move : Move}
    {threads : List (List Task)} {task : Task} {rest : List Task} {o : Outcome}
    (hlimit : l.history.machine.connection.config.writeTimeout = timeout)
    (hport : l.history.machine.connection.dropped = false →
      l.history.machine.connection.session.state = .connected →
      l.history.machine.connection.session.resources.port.isSome)
    (source : threads = l.history.machine.threads ∨
      threads = l.history.machine.threads ++ [[task]] ∧
        l.history.machine.threadOf move = l.history.machine.threads.length ∧
          Begins l.history.machine.connection l.history.machine.pending move task)
    (head : threads[l.history.machine.threadOf move]? = some (task :: rest))
    (ran : l.history.machine.connection.exec move.outside task = some o) :
    WriteCourse timeout (marksOf l.marks (l.history.machine.threadOf move) ++
        Entry.marks ⟨move, l.history.machine.connection, task, o.effects, o.connection⟩)
      (o.next ++ rest) ∧ ∀ l ∈ o.started, ∀ t ∈ l, t.isWrite = false := by
  have hcourse := h.course (l.history.machine.threadOf move)
  rcases source with rfl | ⟨rfl, hat, hb⟩
  · rw [head, Option.getD_some] at hcourse
    exact hcourse.step ran hlimit move
  · rw [hat, List.getElem?_concat_length] at head
    obtain ⟨-, rfl⟩ := List.cons.inj (Option.some.inj head)
    rw [hat, h.unborn (Nat.le_refl _), List.nil_append, List.append_nil]
    have hother : task.isWrite = false → WriteCourse timeout
        (Entry.marks ⟨move, l.history.machine.connection, task, o.effects, o.connection⟩)
        o.next ∧ ∀ l ∈ o.started, ∀ t ∈ l, t.isWrite = false := by
      intro ht
      have hu := unwritten_of_exec ran ht
      rw [hu.marks ht]
      exact ⟨.other hu.next, hu.started⟩
    cases hb with
    | write held =>
      obtain ⟨hcalled, hnone⟩ := course_of_call ran (hport held) timeout (.call (.write _) _)
      exact ⟨hcalled, by simp [hnone]⟩
    | _ => exact hother rfl

/-- A step is one of the two steps of a write, or it is none. -/
theorem Log.Kept.task_of_move {timeout : Nat} {l : Log} (h : l.Kept timeout) {move : Move}
    {e : Entry} {m' : Machine} (hm : l.history.machine.move move = some (e, m')) :
    e.task.isWrite = false ∨ (∃ data, e.task = .write data) ∨
      ∃ port data, e.task = .send port data := by
  obtain ⟨threads, task, rest, o, source, head, -, rfl, -⟩ := advances_at hm
  rcases source with rfl | ⟨-, -, hb⟩
  · have hcourse := h.course (l.history.machine.threadOf move)
    rw [head, Option.getD_some] at hcourse
    generalize marksOf l.marks (l.history.machine.threadOf move) = told at hcourse
    cases hcourse with
    | other hother => exact Or.inl (hother task (List.mem_cons_self ..))
    | underWay => exact Or.inr (Or.inr ⟨_, _, rfl⟩)
  · cases hb with
    | write => exact Or.inr (Or.inl ⟨_, rfl⟩)
    | _ => exact Or.inl rfl

theorem Log.Kept.extend {timeout : Nat} {l : Log} (h : l.Kept timeout) (move : Move)
    (hlimit : l.history.machine.connection.config.writeTimeout = timeout)
    (hport : l.history.machine.connection.dropped = false →
      l.history.machine.connection.session.state = .connected →
      l.history.machine.connection.session.resources.port.isSome) :
    (l.extend move).Kept timeout := by
  unfold Log.extend
  split
  case h_2 => exact h
  case h_1 e m' hm =>
    obtain ⟨threads, task, rest, o, source, head, ran, rfl, rfl⟩ := advances_at hm
    obtain ⟨hown, hstarted⟩ := h.course_of_thread hlimit hport source head ran
    generalize hat : l.history.machine.threadOf move = thread at *
    have hlt : thread < threads.length := (List.getElem?_eq_some_iff.mp head).1
    have hlen : l.history.machine.threads.length ≤ threads.length := by
      rcases source with rfl | ⟨rfl, -, -⟩ <;> simp
    constructor
    case born =>
      intro m hmem
      simp only [List.length_append, List.length_set]
      rcases List.mem_append.mp hmem with hmem | hmem
      · have := h.born m hmem
        omega
      · obtain ⟨_, _, rfl⟩ := List.mem_map.mp hmem
        dsimp only
        omega
    case course =>
      intro k
      dsimp only
      rw [marksOf_append]
      by_cases hk : thread = k
      · subst hk
        rw [marksOf_same, getElem?_stepped hlt, if_pos rfl, Option.getD_some]
        exact hown
      · rw [marksOf_other _ hk, List.append_nil]
        rcases Nat.lt_or_ge k threads.length with hlow | hhigh
        · -- another thread that was there before stands where it stood
          have hsame : threads[k]? = l.history.machine.threads[k]? := by
            rcases source with rfl | ⟨rfl, rfl, -⟩
            · rfl
            · rw [List.length_append, List.length_singleton] at hlow
              exact List.getElem?_append_left (by omega)
          rw [getElem?_stepped hlow, if_neg hk, hsame]
          exact h.course k
        · rw [h.unborn (Nat.le_trans hlen hhigh),
            List.getElem?_append_right (by rw [List.length_set]; exact hhigh)]
          apply WriteCourse.other
          intro t hmem
          rcases hs : o.started[k - (threads.set thread (o.next ++ rest)).length]? with _ | l
          · rw [hs] at hmem
            cases hmem
          · rw [hs] at hmem
            exact hstarted l (List.mem_of_getElem? hs) t hmem

/-! ## Any moves -/

theorem config_of_moves (c : Connection) (moves : List Move) :
    (History.of c moves).machine.connection.config = c.config := by
  refine History.moves_induction (I := fun h => h.machine.connection.config = c.config) rfl ?_ moves
  intro moves move e m' ih hm
  obtain ⟨ran, _, hafter, _, _⟩ := makes_of_move hm
  rw [hafter, (fixed_of_exec ran).2, ih]

/-- Each thread that writes keeps to the course of a write, whatever the outside answers and
whatever else goes on. -/
theorem kept_of_moves (device : DeviceInfo) (config : ConnectionConfig) (prober : Prober)
    (moves : List Move) :
    (Log.of (.new device config prober) moves).Kept config.writeTimeout := by
  induction moves using List.reverseRecOn with
  | nil => exact ⟨fun k => .other (by simp [Log.of]), by simp [Log.of]⟩
  | append_singleton moves move ih =>
    rw [Log.of_snoc]
    apply ih.extend
    · rw [Log.history_of, config_of_moves]
      rfl
    · rw [Log.history_of]
      intro held hup
      have howns := (accounted_of_moves device config prober moves).owns held
      exact (owns_port howns (by rw [hup]; decide)).mpr hup

/-! ## The order of writes -/

/-- The call of a write, with its thread. -/
def call? : Nat × Mark → Option (Nat × Bytes)
  | (thread, .called data _) => some (thread, data)
  | _ => none

/-- The return of a write that was no error, with its thread. -/
def answer? : Nat × Mark → Option (Nat × Bytes)
  | (thread, .returned data (.ok _)) => some (thread, data)
  | _ => none

/-- The writes that were called, in the order of the calls. -/
def calls (marks : List (Nat × Mark)) : List (Nat × Bytes) := marks.filterMap call?

/-- The writes that came back without an error, in the order in which they did. -/
def answered (marks : List (Nat × Mark)) : List (Nat × Bytes) := marks.filterMap answer?

/-- The write of a thread has come back without an error. -/
def wentOut (marks : List (Nat × Mark)) (thread : Nat) : Bool :=
  (answered marks).any fun w => w.1 == thread

/-- The first write came back before the second one was called. -/
def Precedes (marks : List (Nat × Mark)) (first second : Nat) : Prop :=
  ∃ i j : Nat, i < j ∧ (∃ data result, marks[i]? = some (first, .returned data result)) ∧
    ∃ data session, marks[j]? = some (second, .called data session)

/-- Every write had come back when the next one was called. -/
def Successive (marks : List (Nat × Mark)) : Prop :=
  (calls marks).Pairwise fun a b => Precedes marks a.1 b.1

/-- The write of this thread comes back here. -/
def isReturn (thread : Nat) : Nat × Mark → Bool
  | (k, .returned ..) => k == thread
  | _ => false

/-- The write of this thread is called here. -/
def isCall (thread : Nat) : Nat × Mark → Bool
  | (k, .called ..) => k == thread
  | _ => false

theorem isReturn_iff {thread : Nat} {m : Nat × Mark} :
    isReturn thread m = true ↔ ∃ data result, m = (thread, .returned data result) := by
  rcases m with ⟨k, _ | _ | _⟩ <;> simp [isReturn]

theorem isCall_iff {thread : Nat} {m : Nat × Mark} :
    isCall thread m = true ↔ ∃ data session, m = (thread, .called data session) := by
  rcases m with ⟨k, _ | _ | _⟩ <;> simp [isCall]

theorem precedes_iff {marks : List (Nat × Mark)} {first second : Nat} :
    Precedes marks first second ↔ ∃ j < marks.length, (∃ i < j, marks[i]?.any (isReturn first)) ∧
      marks[j]?.any (isCall second) := by
  simp only [Option.any_eq_true, isReturn_iff, isCall_iff]
  constructor
  · rintro ⟨i, j, hij, ⟨data, result, hi⟩, data', session, hj⟩
    exact ⟨j, (List.getElem?_eq_some_iff.mp hj).1, ⟨i, hij, _, hi, data, result, rfl⟩,
      _, hj, data', session, rfl⟩
  · rintro ⟨j, -, ⟨i, hij, _, hi, data, result, rfl⟩, _, hj, data', session, rfl⟩
    exact ⟨i, j, hij, ⟨data, result, hi⟩, data', session, hj⟩

instance (marks : List (Nat × Mark)) (first second : Nat) :
    Decidable (Precedes marks first second) := decidable_of_iff _ precedes_iff.symm

instance (marks : List (Nat × Mark)) : Decidable (Successive marks) :=
  inferInstanceAs (Decidable ((calls marks).Pairwise fun a b => Precedes marks a.1 b.1))

/-- A mark that may stand before another one of the same write. -/
def Mark.Before : Mark → Mark → Prop
  | .returned .., _ => False
  | _, .called .. => False
  | _, _ => True

section Order

variable {thread : Nat} {data : Bytes} {marks : List (Nat × Mark)}

theorem call?_eq_some {m : Nat × Mark} :
    call? m = some (thread, data) ↔ ∃ session, m = (thread, .called data session) := by
  obtain ⟨t, m⟩ := m
  cases m <;> simp [call?]

theorem answer?_eq_some {m : Nat × Mark} :
    answer? m = some (thread, data) ↔ ∃ n, m = (thread, .returned data (.ok n)) := by
  obtain ⟨t, _ | _ | ⟨d, _ | n⟩⟩ := m <;> simp [answer?]

theorem mem_calls : (thread, data) ∈ calls marks ↔
    ∃ session, (thread, Mark.called data session) ∈ marks := by
  simp only [calls, List.mem_filterMap, call?_eq_some]
  constructor
  · rintro ⟨_, hm, session, rfl⟩
    exact ⟨session, hm⟩
  · rintro ⟨session, hm⟩
    exact ⟨_, hm, session, rfl⟩

theorem mem_answered : (thread, data) ∈ answered marks ↔
    ∃ n, (thread, Mark.returned data (.ok n)) ∈ marks := by
  simp only [answered, List.mem_filterMap, answer?_eq_some]
  constructor
  · rintro ⟨_, hm, n, rfl⟩
    exact ⟨n, hm⟩
  · rintro ⟨n, hm⟩
    exact ⟨_, hm, n, rfl⟩

theorem WriteCourse.ordered {timeout : Nat} {told : List Mark} {tasks : List Task}
    (h : WriteCourse timeout told tasks) : told.Pairwise Mark.Before := by
  cases h <;> simp [Mark.Before]

end Order

namespace Log.Kept

variable {timeout thread : Nat} {l : Log} {data data' : Bytes} {i j : Nat}

/-- The marks of a write stand in order, whatever stands between them. -/
theorem before (h : l.Kept timeout) {a b : Mark} (hij : i < j)
    (hi : l.marks[i]? = some (thread, a)) (hj : l.marks[j]? = some (thread, b)) : a.Before b := by
  have hpair := (h.course thread).ordered
  rw [marksOf, List.pairwise_filterMap, List.pairwise_iff_getElem] at hpair
  obtain ⟨hilt, higet⟩ := List.getElem?_eq_some_iff.mp hi
  obtain ⟨hjlt, hjget⟩ := List.getElem?_eq_some_iff.mp hj
  exact hpair i j hilt hjlt hij a (by simp [higet]) b (by simp [hjget])

theorem called_before_returned (h : l.Kept timeout) {session : Session}
    {result : Except ConnectionError Nat}
    (hi : l.marks[i]? = some (thread, .called data session))
    (hj : l.marks[j]? = some (thread, .returned data' result)) : i < j := by
  rcases Nat.lt_trichotomy i j with hlt | rfl | hlt
  · exact hlt
  · rw [hi] at hj
    cases hj
  · exact (h.before hlt hj hi).elim

theorem returned_once (h : l.Kept timeout) {result result' : Except ConnectionError Nat}
    (hi : l.marks[i]? = some (thread, .returned data result))
    (hj : l.marks[j]? = some (thread, .returned data' result')) : i = j := by
  rcases Nat.lt_trichotomy i j with hlt | rfl | hlt
  · exact (h.before hlt hi hj).elim
  · rfl
  · exact (h.before hlt hj hi).elim

/-- A write comes back with the data that it was called with. -/
theorem called_of_returned (h : l.Kept timeout) {result : Except ConnectionError Nat}
    (hr : (thread, Mark.returned data result) ∈ l.marks) :
    (∃ session, (thread, Mark.called data session) ∈ l.marks) ∧
      ∀ d session, (thread, Mark.called d session) ∈ l.marks → d = data := by
  simp only [← mem_marksOf] at hr ⊢
  have hcourse := h.course thread
  generalize marksOf l.marks thread = told at hr hcourse ⊢
  generalize l.history.machine.threads[thread]?.getD [] = tasks at hcourse
  cases hcourse <;> simp_all

theorem not_precedes_back (h : l.Kept timeout) {first second : Nat}
    (hp : Precedes l.marks first second) : ¬ Precedes l.marks second first := by
  rintro ⟨i', j', hij', ⟨_, _, hi'⟩, ⟨_, _, hj'⟩⟩
  obtain ⟨i, j, hij, ⟨_, _, hi⟩, ⟨_, _, hj⟩⟩ := hp
  have h1 := h.called_before_returned hj hi'
  have h2 := h.called_before_returned hj' hi
  omega

theorem nodup_calls (h : l.Kept timeout) : (calls l.marks).Nodup := by
  rw [calls, List.Nodup, List.pairwise_filterMap, List.pairwise_iff_getElem]
  rintro i j hi hj hij ⟨t, d⟩ ha _ hb rfl
  obtain ⟨_, ha⟩ := call?_eq_some.mp ha
  obtain ⟨_, hb⟩ := call?_eq_some.mp hb
  exact h.before hij (List.getElem?_eq_some_iff.mpr ⟨hi, ha⟩)
    (List.getElem?_eq_some_iff.mpr ⟨hj, hb⟩)

/-- What came back first was not called behind the return of what came back later. -/
theorem not_precedes_answered (h : l.Kept timeout) :
    (answered l.marks).Pairwise fun a b => a ≠ b ∧ ¬ Precedes l.marks b.1 a.1 := by
  rw [answered, List.pairwise_filterMap, List.pairwise_iff_getElem]
  rintro i j hi hj hij ⟨t, d⟩ ha ⟨u, d'⟩ hb
  obtain ⟨_, ha⟩ := answer?_eq_some.mp ha
  obtain ⟨_, hb⟩ := answer?_eq_some.mp hb
  have ha := List.getElem?_eq_some_iff.mpr ⟨hi, ha⟩
  have hb := List.getElem?_eq_some_iff.mpr ⟨hj, hb⟩
  constructor
  · rintro heq
    cases heq
    exact h.before hij ha hb
  · rintro ⟨i', j', hij', ⟨_, _, hi'⟩, ⟨_, _, hj'⟩⟩
    have hsame := h.returned_once hi' hb
    have hlt := h.called_before_returned hj' ha
    omega

/-- What came back without an error is what was called and went out, each write once. -/
theorem answered_perm (h : l.Kept timeout) :
    (answered l.marks).Perm ((calls l.marks).filter fun w => wentOut l.marks w.1) := by
  apply (List.perm_ext_iff_of_nodup _ (h.nodup_calls.filter _)).mpr
  case _ =>
    rintro ⟨t, d⟩
    rw [List.mem_filter, mem_calls, mem_answered]
    constructor
    · rintro ⟨n, hr⟩
      refine ⟨(h.called_of_returned hr).1, ?_⟩
      exact List.any_eq_true.mpr ⟨(t, d), mem_answered.mpr ⟨n, hr⟩, by simp⟩
    · rintro ⟨⟨session, hc⟩, hout⟩
      obtain ⟨⟨u, d'⟩, hmem, hu⟩ := List.any_eq_true.mp hout
      obtain rfl : u = t := by simpa using hu
      obtain ⟨n, hr⟩ := mem_answered.mp hmem
      obtain rfl := (h.called_of_returned hr).2 d session hc
      exact ⟨n, hr⟩
  case _ => exact h.not_precedes_answered.imp fun hab => hab.1

/-- Where each write comes back before the next one is called, writes go out in the order of their
calls. -/
theorem answered_eq (h : l.Kept timeout) (hone : Successive l.marks) :
    answered l.marks = (calls l.marks).filter fun w => wentOut l.marks w.1 := by
  have hcalls : ((calls l.marks).filter fun w => wentOut l.marks w.1).Pairwise
      fun a b => ¬ Precedes l.marks b.1 a.1 :=
    (hone.imp fun hab => h.not_precedes_back hab).filter _
  have hanswered := h.not_precedes_answered.imp fun hab => hab.2
  apply h.answered_perm.eq_of_pairwise _ hanswered hcalls
  -- of two different writes one precedes the other, so neither list has a choice
  intro a b ha hb hab hba
  by_contra hne
  have hsymm : Std.Symm fun a b : Nat × Bytes =>
      Precedes l.marks a.1 b.1 ∨ Precedes l.marks b.1 a.1 := ⟨fun _ _ => Or.symm⟩
  have hall : (calls l.marks).Pairwise fun a b =>
      Precedes l.marks a.1 b.1 ∨ Precedes l.marks b.1 a.1 := hone.imp Or.inl
  have ha := List.mem_of_mem_filter (h.answered_perm.mem_iff.mp ha)
  rcases hall.forall ha (List.mem_of_mem_filter hb) hne with hp | hp
  · exact hba hp
  · exact hab hp

end Log.Kept

end SerialLink.Connection
