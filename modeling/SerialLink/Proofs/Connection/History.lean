-- Histories of one connection. Calls, events and reports of read errors come
-- in any order and at any time, each on a thread of its own, and the threads
-- take their steps in any order. So what a call or a callback does while
-- another one is under way is a history like any other.
import Mathlib.Algebra.Order.Group.Multiset
import Mathlib.Data.List.Induction
import Mathlib.Data.Multiset.Filter
import SerialLink.Connection.Machine

namespace SerialLink.Connection

/-! ## Moves -/

/-- What happens next. A call, an event and a report begin a thread, which takes its first step at
once; `x` is what the outside answers to the step taken. -/
inductive Move
  | call (call : Call) (x : Outside)
  | event (event : DeviceEvent) (x : Outside)
  /-- The reader of an attempt, or of none that there is, reports that a read failed. -/
  | readError (attempt : Nat) (x : Outside)
  | step (thread : Nat) (x : Outside)

/-- The thread that a move steps, if it was there before. -/
def Move.thread : Move → Option Nat
  | .step thread _ => some thread
  | _ => none

/-- What the outside answers to the step that a move takes. -/
def Move.outside : Move → Outside
  | .call _ x | .event _ x | .readError _ x | .step _ x => x

/-- A task of a read thread or of a drain. -/
def Task.isWorker : Task → Bool
  | .read .. | .accept .. | .check _ | .enqueue _ => true
  | .take _ | .deliver .. | .give .. | .delivered _ | .pause _ => true
  | _ => false

/-- A task that does not keep the connection alive: what read threads and drains do, and an event
that is about to be heard. -/
def Task.isLoose : Task → Bool
  | .handle _ => true
  | task => task.isWorker

/-- One step of a thread as it stands in a history. -/
structure Entry where
  move : Move
  before : Connection
  task : Task
  effects : List Effect
  after : Connection

namespace Machine

/-- All tasks that the threads have yet to do. -/
def pending (m : Machine) : Multiset Task := (m.threads.flatten : List Task)

/-- The last handle can be let go, because no thread is inside the connection. -/
def isFree (m : Machine) : Bool := m.threads.flatten.all Task.isLoose

/-- A call needs a handle. The last one is let go only while nobody is inside. -/
def takesCall (m : Machine) : Call → Bool
  | .drop => !m.connection.dropped && m.isFree
  | _ => !m.connection.dropped

/-- One step of a thread, and its entry. -/
def enter (m : Machine) (move : Move) (thread : Nat) (x : Outside) : Option (Entry × Machine) :=
  match m.next? thread, m.step thread x with
  | some task, some (effects, after) =>
    some ({ move, before := m.connection, task, effects, after := after.connection }, after)
  | _, _ => none

/-- Begins a thread with its first step. -/
def begin (m : Machine) (move : Move) (tasks : List Task) (x : Outside) :
    Option (Entry × Machine) :=
  let (thread, m) := m.spawn tasks
  m.enter move thread x

/-- What a move does; nothing if it cannot be made now. An event of another device is not for this
connection. -/
def move (m : Machine) (move : Move) : Option (Entry × Machine) :=
  match move with
  | .call call x => if m.takesCall call then m.begin move call.tasks x else none
  | .event event x =>
    if event.deviceId = m.connection.device.identifier then m.begin move [.handle event.kind] x
    else none
  | .readError attempt x =>
    if m.connection.dropped then none else m.begin move [.teardown (some attempt)] x
  | .step thread x => m.enter move thread x

end Machine

/-- The steps taken so far, oldest first, and the machine behind them. -/
structure History where
  entries : List Entry := []
  machine : Machine

namespace History

/-- Makes a move, or passes over one that cannot be made. -/
def extend (h : History) (move : Move) : History :=
  match h.machine.move move with
  | some (entry, machine) => { entries := h.entries ++ [entry], machine }
  | none => h

/-- The history of a connection that makes these moves. -/
def of (c : Connection) (moves : List Move) : History :=
  moves.foldl extend { machine := { connection := c } }

/-- What was seen from outside, in order. -/
def effects (h : History) : List Effect := h.entries.flatMap (·.effects)

end History

/-- What comes of these moves from here on. -/
def Machine.ahead (m : Machine) (moves : List Move) : History :=
  moves.foldl History.extend { machine := m }

/-- The steps that come of more moves. -/
def History.later (c : Connection) (moves more : List Move) : List Entry :=
  (of c (moves ++ more)).entries.drop (of c moves).entries.length

/-! ## One move -/

/-- Which task a new thread begins with, and when it may. -/
inductive Begins (c : Connection) (others : Multiset Task) : Move → Task → Prop
  | connect {x : Outside} (held : c.dropped = false) : Begins c others (.call .connect x) .connect
  | disconnect {x : Outside} (held : c.dropped = false) :
    Begins c others (.call .disconnect x) (.teardown none)
  | write {x : Outside} {data : Bytes} (held : c.dropped = false) :
    Begins c others (.call (.write data) x) (.write data)
  | drop {x : Outside} (held : c.dropped = false) (free : ∀ t ∈ others, t.isLoose) :
    Begins c others (.call .drop x) .drop
  | event {x : Outside} {event : DeviceEvent} (own : event.deviceId = c.device.identifier) :
    Begins c others (.event event x) (.handle event.kind)
  | readError {x : Outside} {attempt : Nat} (held : c.dropped = false) :
    Begins c others (.readError attempt x) (.teardown (some attempt))

theorem enter_eq {m m' : Machine} {move : Move} {thread : Nat} {x : Outside} {e : Entry}
    (h : m.enter move thread x = some (e, m')) :
    ∃ task rest o, m.threads[thread]? = some (task :: rest) ∧
      m.connection.exec x task = some o ∧
      e = ⟨move, m.connection, task, o.effects, o.connection⟩ ∧
      m' = ⟨o.connection, m.threads.set thread (o.next ++ rest) ++ o.started⟩ := by
  unfold Machine.enter Machine.next? Machine.step at h
  rcases ht : m.threads[thread]? with _ | tasks
  · simp [ht] at h
  · cases tasks with
    | nil => simp [ht] at h
    | cons task rest =>
      rcases ho : m.connection.exec x task with _ | o
      · simp [ht, ho] at h
      · simp only [ht, ho, Option.bind_some, List.head?_cons, Option.map_some, Option.some.injEq,
          Prod.mk.injEq] at h
        exact ⟨task, rest, o, rfl, ho, h.1.symm, h.2.symm⟩

theorem enter_of_exec {m : Machine} {move : Move} {thread : Nat} {x : Outside} {task : Task}
    {rest : List Task} {o : Outcome} (ht : m.threads[thread]? = some (task :: rest))
    (ho : m.connection.exec x task = some o) :
    m.enter move thread x = some (⟨move, m.connection, task, o.effects, o.connection⟩,
      ⟨o.connection, m.threads.set thread (o.next ++ rest) ++ o.started⟩) := by
  unfold Machine.enter Machine.next? Machine.step
  simp [ht, ho]

/-- The threads that were there after a step: the one that took it has its new tasks. -/
theorem getElem?_stepped {threads : List (List Task)} {k : Nat} (hk : k < threads.length)
    (thread : Nat) (tasks : List Task) (started : List (List Task)) :
    (threads.set thread tasks ++ started)[k]? =
      if thread = k then some tasks else threads[k]? := by
  rw [List.getElem?_append_left (by rwa [List.length_set]), List.getElem?_set]
  by_cases hown : thread = k
  · subst hown
    rw [if_pos rfl, if_pos hk, if_pos rfl]
  · rw [if_neg hown, if_neg hown]

/-- A thread in the middle of the others: its first task is one of all that are pending, and what
the task leaves behind takes its place among them. -/
theorem pending_split {threads : List (List Task)} {thread : Nat} {task : Task} {rest : List Task}
    (h : threads[thread]? = some (task :: rest)) :
    ∃ others : Multiset Task, (threads.flatten : Multiset Task) = task ::ₘ others ∧
      ∀ next started, ((threads.set thread (next ++ rest) ++ started).flatten : Multiset Task) =
        (next : Multiset Task) + (started.flatten : Multiset Task) + others := by
  obtain ⟨hlt, hget⟩ := List.getElem?_eq_some_iff.mp h
  refine ⟨((threads.take thread).flatten ++ (rest ++ (threads.drop (thread + 1)).flatten) :
    List Task), ?_, ?_⟩
  · have hsplit : threads = threads.take thread ++ (task :: rest) :: threads.drop (thread + 1) := by
      rw [← hget, ← List.drop_eq_getElem_cons hlt, List.take_append_drop]
    conv_lhs => rw [hsplit]
    simp only [List.flatten_append, List.flatten_cons, List.cons_append, ← Multiset.coe_add,
      ← Multiset.cons_coe, Multiset.add_cons]
  · intro next started
    rw [List.set_eq_take_append_cons_drop, if_pos hlt]
    simp only [List.flatten_append, List.flatten_cons, ← Multiset.coe_add, List.append_assoc]
    ac_rfl

theorem begin_eq {m m' : Machine} {move : Move} {task : Task} {x : Outside} {e : Entry}
    (h : m.begin move [task] x = some (e, m')) :
    ∃ o, m.connection.exec x task = some o ∧
      e = ⟨move, m.connection, task, o.effects, o.connection⟩ ∧ m'.connection = o.connection ∧
      m'.pending = (o.next : Multiset Task) + (o.started.flatten : Multiset Task) + m.pending := by
  obtain ⟨task', rest, o, ht, ho, he, hm⟩ := enter_eq h
  simp only [List.getElem?_append_right (Nat.le_refl _), Nat.sub_self,
    List.getElem?_cons_zero, Option.some.injEq, List.cons.injEq] at ht ho he hm
  obtain ⟨rfl, rfl⟩ := ht
  refine ⟨o, ho, he, by rw [hm], ?_⟩
  rw [hm]
  unfold Machine.pending
  simp only [List.append_nil, List.set_append_right _ _ (Nat.le_refl _), Nat.sub_self,
    List.set_cons_zero, List.flatten_append, List.flatten_cons, List.flatten_nil,
    ← Multiset.coe_add]
  ac_rfl

/-- How a move came about: it was a step of a task that was pending, or of one that it began. -/
inductive Makes (m : Machine) (move : Move) (e : Entry) (m' : Machine) : Prop
  | intro {task : Task} {others : Multiset Task} {o : Outcome}
    (ran : m.connection.exec move.outside task = some o)
    (entry : e = ⟨move, m.connection, task, o.effects, o.connection⟩)
    (connection : m'.connection = o.connection)
    (pending : m'.pending =
      (o.next : Multiset Task) + (o.started.flatten : Multiset Task) + others)
    (source : m.pending = task ::ₘ others ∨
      m.pending = others ∧ Begins m.connection others move task)

theorem makes_of_begin {m m' : Machine} {move : Move} {task : Task} {e : Entry}
    (h : m.begin move [task] move.outside = some (e, m'))
    (hb : Begins m.connection m.pending move task) : Makes m move e m' := by
  obtain ⟨o, ho, he, hc, hp⟩ := begin_eq h
  exact ⟨ho, he, hc, hp, Or.inr ⟨rfl, hb⟩⟩

/-- A move is a step of a thread that is there, or it begins one. -/
theorem move_cases {m m' : Machine} {move : Move} {e : Entry} (h : m.move move = some (e, m')) :
    (∃ thread, move.thread = some thread ∧ m.enter move thread move.outside = some (e, m')) ∨
      ∃ task, Begins m.connection m.pending move task ∧
        m.begin move [task] move.outside = some (e, m') := by
  cases move with
  | call call x =>
    simp only [Machine.move] at h
    split at h
    · rename_i hcall
      cases call with
      | connect => exact Or.inr ⟨_, .connect (by simpa [Machine.takesCall] using hcall), h⟩
      | disconnect => exact Or.inr ⟨_, .disconnect (by simpa [Machine.takesCall] using hcall), h⟩
      | write data => exact Or.inr ⟨_, .write (by simpa [Machine.takesCall] using hcall), h⟩
      | drop =>
        simp only [Machine.takesCall, Bool.and_eq_true, Bool.not_eq_true', Machine.isFree,
          List.all_eq_true] at hcall
        exact Or.inr ⟨_, .drop hcall.1 fun t ht => hcall.2 t (Multiset.mem_coe.mp ht), h⟩
    · cases h
  | event event x =>
    simp only [Machine.move] at h
    split at h
    · exact Or.inr ⟨_, .event ‹_›, h⟩
    · cases h
  | readError attempt x =>
    simp only [Machine.move] at h
    split at h
    · cases h
    · exact Or.inr ⟨_, .readError (by simpa using ‹¬ m.connection.dropped = true›), h⟩
  | step thread x => exact Or.inl ⟨thread, rfl, h⟩

theorem makes_of_move {m m' : Machine} {move : Move} {e : Entry}
    (h : m.move move = some (e, m')) : Makes m move e m' := by
  rcases move_cases h with ⟨thread, _, h⟩ | ⟨task, hb, h⟩
  · obtain ⟨task, rest, o, ht, ho, he, hm⟩ := enter_eq h
    obtain ⟨others, hp, hp'⟩ := pending_split ht
    exact ⟨ho, he, by rw [hm], by rw [hm]; exact hp' _ _, Or.inl hp⟩
  · exact makes_of_begin h hb

/-! ## Any moves -/

/-- What holds where no move was made yet, and is kept by every move, holds after any moves. -/
theorem Machine.ahead_induction {I : History → Prop} {m : Machine} (start : I { machine := m })
    (step : ∀ moves move e m', I (m.ahead moves) →
      (m.ahead moves).machine.move move = some (e, m') →
      I { entries := (m.ahead moves).entries ++ [e], machine := m' })
    (moves : List Move) : I (m.ahead moves) := by
  induction moves using List.reverseRecOn with
  | nil => exact start
  | append_singleton moves move ih =>
    have hlast : m.ahead (moves ++ [move]) = (m.ahead moves).extend move := by
      unfold ahead
      rw [List.foldl_append]
      rfl
    rw [hlast]
    unfold History.extend
    split
    · rename_i e m' hm
      exact step moves move e m' ih hm
    · exact ih

/-- The same for a history from its beginning. The laws of histories may be used where a move is
made. -/
theorem History.moves_induction {I : History → Prop} {c : Connection}
    (start : I { machine := { connection := c } })
    (step : ∀ moves move e m', I (of c moves) → (of c moves).machine.move move = some (e, m') →
      I { entries := (of c moves).entries ++ [e], machine := m' })
    (moves : List Move) : I (of c moves) :=
  Machine.ahead_induction start step moves

/-- A history goes on as if it began where it is, with the steps taken so far before the others. -/
theorem History.of_append (c : Connection) (moves more : List Move) :
    of c (moves ++ more) =
      { entries := (of c moves).entries ++ ((of c moves).machine.ahead more).entries
        machine := ((of c moves).machine.ahead more).machine } := by
  unfold Machine.ahead
  rw [of, List.foldl_append]
  show more.foldl extend (of c moves) = _
  induction more using List.reverseRecOn with
  | nil =>
    rw [List.foldl_nil, List.foldl_nil, List.append_nil]
  | append_singleton more move ih =>
    rw [List.foldl_append, List.foldl_append, ih]
    simp only [List.foldl_cons, List.foldl_nil]
    unfold extend
    dsimp only
    split
    · rw [List.append_assoc]
    · rfl

theorem History.of_snoc (c : Connection) (moves : List Move) (move : Move) :
    of c (moves ++ [move]) = (of c moves).extend move := by
  rw [of, List.foldl_append]
  rfl

theorem History.later_eq (c : Connection) (moves more : List Move) :
    later c moves more = ((of c moves).machine.ahead more).entries := by
  rw [later, of_append, List.drop_left]

theorem History.entries_append (c : Connection) (moves more : List Move) :
    (of c (moves ++ more)).entries = (of c moves).entries ++ later c moves more := by
  rw [later_eq, of_append]

/-- The steps that come of one more move. -/
theorem History.later_snoc (c : Connection) (moves more : List Move) (move : Move) :
    later c moves (more ++ [move]) = later c moves more ++
      (((of c (moves ++ more)).machine.move move).map Prod.fst).toList := by
  have hentries : (of c (moves ++ more ++ [move])).entries = (of c (moves ++ more)).entries ++
      (((of c (moves ++ more)).machine.move move).map Prod.fst).toList := by
    rw [of_snoc]
    unfold extend
    split
    · rename_i hm
      rw [hm]
      rfl
    · rename_i hm
      rw [hm]
      exact (List.append_nil _).symm
  rw [List.append_assoc, entries_append, entries_append, List.append_assoc] at hentries
  exact List.append_cancel_left hentries

/-- What holds of a connection at rest, and is kept by every step of a pending task and by every
first step of a new thread, holds after any moves. -/
theorem History.of_induction {I : List Entry → Connection → Multiset Task → Prop}
    {c : Connection} (start : I [] c 0)
    (step : ∀ {es c others task move x o}, c.exec x task = some o →
      I es c (task ::ₘ others) ∨ I es c others ∧ Begins c others move task →
      I (es ++ [⟨move, c, task, o.effects, o.connection⟩]) o.connection
        ((o.next : Multiset Task) + (o.started.flatten : Multiset Task) + others))
    (moves : List Move) :
    I (of c moves).entries (of c moves).machine.connection (of c moves).machine.pending := by
  refine moves_induction
    (I := fun h => I h.entries h.machine.connection h.machine.pending) start ?_ moves
  intro moves move e m' ih hm
  obtain ⟨ho, rfl, hc, hp, hsource⟩ := makes_of_move hm
  simp only [hc, hp]
  refine step ho ?_
  rcases hsource with hb | ⟨hb, hbegins⟩
  · exact Or.inl (hb ▸ ih)
  · exact Or.inr ⟨hb ▸ ih, hbegins⟩

end SerialLink.Connection
