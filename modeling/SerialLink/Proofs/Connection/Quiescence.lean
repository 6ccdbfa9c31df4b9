-- A connection where nothing is under way. Operations that come one by one, each
-- when what came before is done with, find it so, and so does every step that
-- starts an attempt or ends one, whichever thread takes it.
import Mathlib.Data.List.DropRight
import SerialLink.Proofs.Connection.Listening
import SerialLink.Proofs.Connection.Threads
import SerialLink.Proofs.Reader.Runs

namespace SerialLink.Connection

/-! ## What a read brings -/

/-- A read came back with bytes or an error. -/
def isNews : Except PortError Bytes → Bool
  | .ok [] => false
  | _ => true

namespace Entry

/-- What a read of the port came back with. -/
def answer (e : Entry) : Option (Except PortError Bytes) :=
  match e.task with
  | .read k .reading => e.before.readers[k]?.bind fun a =>
    e.move.outside.read a.port a.reader.size
  | _ => none

/-- The slice that a read brought, as the size of its reader cuts it. -/
def brought (e : Entry) : Option Bytes := e.answer.bind Reader.slice?

/-- A call, an event or a report of a read error comes, or a read comes back with bytes or an
error. -/
def arrives (e : Entry) : Bool := e.move.thread.isNone || e.answer.any isNews

/-- An attempt starts or ends with this step, the last handle is let go, or a read brings a
slice. -/
def turns (e : Entry) : Bool :=
  e.before.session.state.isLive != e.after.session.state.isLive ||
    e.before.dropped != e.after.dropped || e.brought.isSome

end Entry

/-! ## Tasks that rest, and tasks that stir -/

/-- A read thread that stands here waits for its port or is on its way out. -/
def isWaiting : Reader.Point Nat → Bool
  | .checking | .reading | .leaving => true
  | _ => false

/-- A read thread that stands here has an error to report. -/
def isFailing : Reader.Point Nat → Bool
  | .failed _ | .reporting _ | .telling .. => true
  | _ => false

/-- What drains do, and read threads that wait. -/
def Task.rests : Task → Bool
  | .read _ point => isWaiting point
  | .take _ | .deliver .. | .give .. | .delivered _ | .pause _ => true
  | _ => false

/-- A task with a slice that is yet to be shown, or one that makes the checker anew, silences a
reader, or comes to the marker. -/
def Task.stirs : Task → Bool
  | .read _ point => !hasNone point
  | .accept .. | .check _ => true
  | .resetChecker | .clearListener _ => true
  | .setParameters .. | .parametersSet .. | .startFeeding _ => true
  | _ => false

/-- A task that starts an attempt or ends one, or may come to that. -/
def Task.mayTurn : Task → Bool
  | .connect | .drop | .handle _ | .teardown _ => true
  | .read _ point => isFailing point
  | t => t.drives.isSome

/-- Every operation is done with. -/
def Machine.isResting (m : Machine) : Bool := m.threads.flatten.all Task.rests

/-- No slice is under way to the checker, and nothing that slices meet is being changed. -/
def Machine.isCalm (m : Machine) : Bool := m.threads.flatten.all fun t => !t.stirs

theorem isResting_iff (m : Machine) :
    m.isResting = true ↔ ∀ l ∈ m.threads, ∀ t ∈ l, t.rests = true := by
  simp only [Machine.isResting, List.all_eq_true, List.mem_flatten, forall_exists_index, and_imp]
  exact ⟨fun h l hl t ht => h t l hl ht, fun h t l hl ht => h l hl t ht⟩

theorem isCalm_iff (m : Machine) : m.isCalm = true ↔ ∀ t ∈ m.pending, t.stirs = false := by
  simp only [Machine.isCalm, Machine.pending, List.all_eq_true, Bool.not_eq_true',
    Multiset.mem_coe]

theorem still_of_rests {t : Task} (h : t.rests = true) : t.stirs = false := by
  cases t with
  | read k point => cases point <;> first | rfl | cases h
  | _ => first | rfl | cases h

/-! ## Moves that come where a machine is so -/

/-- Every step of this kind comes where the machine is so. -/
def Whenever (c : Connection) (moves : List Move) (p : Entry → Bool) (q : Machine → Bool) : Prop :=
  ∀ i : Fin moves.length, ∀ r ∈ (History.of c (moves.take i)).machine.move moves[i],
    p r.1 = true → q (History.of c (moves.take i)).machine = true

instance (c : Connection) (moves : List Move) (p : Entry → Bool) (q : Machine → Bool) :
    Decidable (Whenever c moves p q) :=
  inferInstanceAs (Decidable (∀ i : Fin moves.length,
    ∀ r ∈ (History.of c (moves.take i)).machine.move moves[i],
      p r.1 = true → q (History.of c (moves.take i)).machine = true))

/-- Operations come one by one: each call, event and report of a read error, and each read that
comes back with bytes or an error, comes when all before it are done with. -/
def OneByOne (c : Connection) (moves : List Move) : Prop :=
  Whenever c moves Entry.arrives Machine.isResting

/-- Attempts start and end, slices are read and the last handle is let go while nothing is under
way, whatever else goes on. -/
def Unhurried (c : Connection) (moves : List Move) : Prop :=
  Whenever c moves Entry.turns Machine.isCalm

instance (c : Connection) (moves : List Move) : Decidable (OneByOne c moves) :=
  inferInstanceAs (Decidable (Whenever c moves Entry.arrives Machine.isResting))

instance (c : Connection) (moves : List Move) : Decidable (Unhurried c moves) :=
  inferInstanceAs (Decidable (Whenever c moves Entry.turns Machine.isCalm))

section Whenever

variable {c : Connection} {moves : List Move} {move : Move} {p : Entry → Bool}
  {q : Machine → Bool}

theorem Whenever.init (h : Whenever c (moves ++ [move]) p q) : Whenever c moves p q := by
  intro i r hr
  have hlt : i.val < (moves ++ [move]).length := by
    rw [List.length_append]
    omega
  have hi := h ⟨i.val, hlt⟩ r
  have htake : (moves ++ [move]).take i.val = moves.take i.val :=
    List.take_append_of_le_length (Nat.le_of_lt i.isLt)
  have hget : (moves ++ [move])[i.val] = moves[i.val] := List.getElem_append_left i.isLt
  simp only [htake, Fin.getElem_fin, hget] at hi
  exact hi hr

theorem Whenever.last {e : Entry} {m : Machine} (h : Whenever c (moves ++ [move]) p q)
    (hm : (History.of c moves).machine.move move = some (e, m)) (ht : p e = true) :
    q (History.of c moves).machine = true := by
  have hi := h ⟨moves.length, by simp⟩ (e, m)
  simp only [Fin.getElem_fin, List.getElem_concat_length, List.take_left'] at hi
  exact hi hm ht

theorem Whenever.of_append {more : List Move} (h : Whenever c (moves ++ more) p q) :
    Whenever c moves p q := by
  induction more using List.reverseRecOn with
  | nil => rwa [List.append_nil] at h
  | append_singleton more move ih =>
    rw [← List.append_assoc] at h
    exact ih h.init

/-- What holds at first, and is kept by every move that comes where it should, holds after such
moves. -/
theorem Whenever.induction {I : History → Prop} (start : I { machine := { connection := c } })
    (step : ∀ moves move e m, I (.of c moves) →
      (History.of c moves).machine.move move = some (e, m) →
      (p e = true → q (History.of c moves).machine = true) →
      I { entries := (History.of c moves).entries ++ [e], machine := m })
    (moves : List Move) (h : Whenever c moves p q) : I (.of c moves) := by
  induction moves using List.reverseRecOn with
  | nil => exact start
  | append_singleton moves move ih =>
    rw [History.of_snoc]
    unfold History.extend
    split
    · rename_i e m hm
      exact step moves move e m (ih h.init) hm (h.last hm)
    · exact ih h.init

end Whenever

/-! ## One step while one operation is under way -/

/-- Behind a task that may turn nothing stirs in its thread. -/
def Ordered (l : List Task) : Prop := l.Pairwise fun a b => a.mayTurn = true → b.stirs = false

section OneStep

variable {c : Connection} {move : Move} {task t : Task} {o : Outcome} {rest : List Task} {k : Nat}

theorem mayTurn_of_passesOn (h : PassesOn task t) : t.mayTurn = false := by
  cases h <;> rfl

theorem mayTurn_of_release (h : t.isRelease) : t.mayTurn = false := by
  cases t <;> first | rfl | cases h

theorem ordered_of_calm {l : List Task} (h : ∀ t ∈ l, t.mayTurn = false) : Ordered l := by
  refine List.pairwise_of_forall_mem_list fun a ha b _ hab => ?_
  rw [h a ha] at hab
  cases hab

theorem answer_of_read {e : Entry} {a : AttemptReader} (h : e.task = .read k .reading)
    (ha : e.before.readers[k]? = some a) :
    e.answer = e.move.outside.read a.port a.reader.size := by
  unfold Entry.answer
  rw [h]
  simp only [ha, Option.bind_some]

/-- What a step of a read thread comes to: it waits and goes on waiting unless news come, or it
has a slice to hand over, or an error to report. -/
inductive Paces (r : Reader Nat) (answer : Nat → Option (Except PortError Bytes)) :
    Reader.Point Nat → Reader.Next Nat → Prop
  | waits {p q : Reader.Point Nat} (hp : isWaiting p) (hq : isWaiting q) :
    Paces r answer p (.goto q)
  | gone : Paces r answer .leaving .done
  | news {q : Reader.Point Nat} (h : (answer r.size).any isNews) :
    Paces r answer .reading (.goto q)
  | carries {p q : Reader.Point Nat} (hp : hasNone p = false) (hq : isFailing q = false) :
    Paces r answer p (.goto q)
  | hands {p : Reader.Point Nat} {n : Nat} {bytes : Bytes} (hp : hasNone p = false) :
    Paces r answer p (.newData n bytes .checking)
  | fails {p q : Reader.Point Nat} (hp : isFailing p) (hq : hasNone q) :
    Paces r answer p (.goto q)
  | tells {p : Reader.Point Nat} {n : Nat} {e : PortError} (hp : isFailing p) :
    Paces r answer p (.runError n e .leaving)

theorem paces_of_step {r r' : Reader Nat} {answer : Nat → Option (Except PortError Bytes)}
    {point : Reader.Point Nat} {next : Reader.Next Nat}
    (h : r.step answer point = some (next, r')) : Paces r answer point next := by
  unfold Reader.step at h
  cases point with
  | checking =>
    cases h
    exact .waits rfl (by split <;> rfl)
  | reading =>
    dsimp only at h
    split at h
    · cases h
    · cases h
      exact .waits rfl rfl
    · cases h
      rename_i bytes hne he
      refine .news ?_
      rw [he]
      cases bytes with
      | nil => exact absurd rfl hne
      | cons => rfl
    · cases h
      rename_i he
      exact .news (by rw [he]; rfl)
  | received bytes =>
    dsimp only at h
    split at h <;> cases h <;> exact .carries rfl rfl
  | delivering n bytes =>
    cases h
    exact .hands rfl
  | failed e =>
    cases h
    exact .fails rfl (by split <;> rfl)
  | reporting e =>
    dsimp only at h
    split at h <;> cases h <;> exact .fails rfl rfl
  | telling n e =>
    cases h
    exact .tells rfl
  | leaving =>
    cases h
    exact .gone

theorem none_of_waiting {point : Reader.Point Nat} (h : isWaiting point) :
    hasNone point = true ∧ isFailing point = false := by
  cases point <;> first | exact ⟨rfl, rfl⟩ | cases h

/-- A read thread goes on waiting unless its read brought news. -/
theorem rests_of_read {point : Reader.Point Nat} (ho : c.stepRead move.outside k point = some o)
    (h : isWaiting point)
    (hn : (⟨move, c, .read k point, o.effects, o.connection⟩ : Entry).answer.any isNews = false) :
    ∀ t ∈ o.next, t.rests = true := by
  obtain ⟨a, next, reader, ha, hs, rfl⟩ := stepRead_eq ho
  cases paces_of_step hs with
  | waits _ hq => exact List.forall_mem_singleton.mpr hq
  | gone => exact fun t ht => absurd ht List.not_mem_nil
  | news hnews =>
    rw [answer_of_read rfl ha, hnews] at hn
    cases hn
  | carries hp | hands hp =>
    rw [(none_of_waiting h).1] at hp
    cases hp
  | fails hp | tells hp =>
    rw [(none_of_waiting h).2] at hp
    cases hp

/-- Nothing stirs behind what a read thread leaves that may turn. -/
theorem ordered_of_read {point : Reader.Point Nat} (ho : c.stepRead move.outside k point = some o) :
    Ordered o.next := by
  obtain ⟨a, next, reader, ha, hs, rfl⟩ := stepRead_eq ho
  cases paces_of_step hs with
  | waits | news | carries | fails => exact List.pairwise_singleton _ _
  | gone => exact .nil
  | hands => exact List.pairwise_pair.mpr nofun
  | tells =>
    dsimp only [afterRead]
    split
    · exact List.pairwise_singleton _ _
    · exact List.pairwise_pair.mpr fun _ => rfl

/-- A read thread comes to report an error when its read failed, and ends its attempt behind
that. -/
theorem mayTurn_of_read {point : Reader.Point Nat} (ho : c.stepRead move.outside k point = some o)
    (ht : t ∈ o.next) (hturn : t.mayTurn = true) : isFailing point = true ∨
      (⟨move, c, .read k point, o.effects, o.connection⟩ : Entry).answer.any isNews = true := by
  obtain ⟨a, next, reader, ha, hs, rfl⟩ := stepRead_eq ho
  cases paces_of_step hs with
  | waits _ hq =>
    rw [List.mem_singleton.mp ht, Task.mayTurn, (none_of_waiting hq).2] at hturn
    cases hturn
  | gone => cases ht
  | news hnews =>
    rw [answer_of_read rfl ha]
    exact Or.inr hnews
  | carries _ hq =>
    rw [List.mem_singleton.mp ht, Task.mayTurn, hq] at hturn
    cases hturn
  | hands =>
    simp only [afterRead, List.mem_cons, List.not_mem_nil, or_false] at ht
    rcases ht with rfl | rfl <;> cases hturn
  | fails hp | tells hp => exact Or.inl hp

theorem worker_of_rests (h : task.rests = true) : task.isWorker = true := by
  cases task <;> first | rfl | cases h

theorem rests_of_exec (ho : c.exec move.outside task = some o) (h : task.rests = true)
    (hn : (⟨move, c, task, o.effects, o.connection⟩ : Entry).answer.any isNews = false) :
    (∀ t ∈ o.next, t.rests = true) ∧ o.started = [] := by
  have hw := worker_of_rests h
  refine ⟨?_, (exec_turn ho).started_of_worker hw⟩
  by_cases hr : ∃ k point, task = .read k point
  · obtain ⟨k, point, rfl⟩ := hr
    exact rests_of_read ho h hn
  · intro t ht
    cases passesOn_of_worker ho hw (fun k point he => hr ⟨k, point, he⟩) t ht with
    | check | enqueue => cases h
    | _ => rfl

/-- The threads that a step starts wait. -/
theorem Turn.started_rests (h : Turn c task o) : ∀ l ∈ o.started, ∀ t ∈ l, t.rests = true := by
  cases h with
  | worker _ _ _ _ hs | aside _ _ _ _ hs =>
    rw [hs]
    exact nofun
  | readerStarted | drainStarted => simp [Task.rests, isWaiting]
  | _ => exact nofun

theorem ordered_of_exec (ho : c.exec move.outside task = some o) : Ordered o.next := by
  by_cases hr : ∃ k point, task = .read k point
  · obtain ⟨k, point, rfl⟩ := hr
    exact ordered_of_read ho
  · have hrelease : ∀ r, ∀ t ∈ releaseTasks r, t.mayTurn = false :=
      fun r t ht => mayTurn_of_release (isRelease_of_mem ht)
    cases exec_turn ho with
    | worker hw =>
      refine ordered_of_calm fun t ht => ?_
      exact mayTurn_of_passesOn
        (passesOn_of_worker ho hw (fun k point he => hr ⟨k, point, he⟩) t ht)
    | aside _ _ _ hn =>
      refine ordered_of_calm fun t ht => ?_
      obtain ⟨_, _, _, rfl⟩ := hn t ht
      rfl
    | failed | torn =>
      refine ordered_of_calm (List.forall_mem_append.mpr ⟨hrelease _, ?_⟩)
      exact List.forall_mem_singleton.mpr rfl
    | letGo => exact ordered_of_calm (hrelease _)
    | @begun _ permitted =>
      cases permitted <;> simp [Ordered, Task.mayTurn, Task.stirs, Task.drives]
    | _ => simp [Ordered, Task.mayTurn, Task.stirs, Task.drives, Task.stage]

/-- What may turn is led to by what may, or by news. -/
theorem mayTurn_of_exec (ho : c.exec move.outside task = some o) (ht : t ∈ o.next)
    (h : t.mayTurn = true) : task.mayTurn = true ∨
      (⟨move, c, task, o.effects, o.connection⟩ : Entry).answer.any isNews = true := by
  by_cases hr : ∃ k point, task = .read k point
  · obtain ⟨k, point, rfl⟩ := hr
    exact mayTurn_of_read ho ht h
  · cases exec_turn ho with
    | worker hw =>
      rw [mayTurn_of_passesOn
        (passesOn_of_worker ho hw (fun k point he => hr ⟨k, point, he⟩) t ht)] at h
      cases h
    | aside _ _ _ hn =>
      obtain ⟨_, _, _, rfl⟩ := hn t ht
      cases h
    | failing hf => cases hf <;> exact Or.inl rfl
    | idle | notified | readerStopped | unsubscribed | closed => cases ht
    | _ => exact Or.inl rfl

/-- A step that starts an attempt or ends one, or lets go of the last handle. -/
theorem Turn.mayTurn (h : Turn c task o)
    (hs : c.session.state.isLive ≠ o.connection.session.state.isLive ∨
      c.dropped ≠ o.connection.dropped) :
    task.mayTurn = true ∧ task.rests = false ∧ task.stirs = false := by
  have hsame : o.connection.session.state = c.session.state → o.connection.dropped = c.dropped →
      task.mayTurn = true ∧ task.rests = false ∧ task.stirs = false := by
    intro hstate hdropped
    rw [hstate, hdropped] at hs
    simp at hs
  cases h with
  | worker _ hc | aside _ hc => exact hsame (by rw [hc.session]) hc.dropped
  | begun | granted | completed | failed | torn | letGo => exact ⟨rfl, rfl, rfl⟩
  | _ => exact hsame rfl rfl

theorem Ordered.behind (h : Ordered rest) (hn : Ordered o.next)
    (hstill : ∀ t ∈ o.next, t.mayTurn = true → ∀ u ∈ rest, u.stirs = false) :
    Ordered (o.next ++ rest) :=
  List.pairwise_append.mpr ⟨hn, h, fun t ht u hu hturn => hstill t ht hturn u hu⟩

theorem ordered_of_rests {l : List Task} (h : ∀ t ∈ l, t.rests = true) : Ordered l :=
  List.pairwise_of_forall_mem_list fun _ _ u hu _ => still_of_rests (h u hu)

end OneStep

/-! ## Operations one by one -/

/-- All threads but one rest, and nothing stirs in that one behind what may turn. -/
def Single (threads : List (List Task)) : Prop :=
  ∃ busy : Nat, (∀ (i : Nat) (l : List Task), threads[i]? = some l → i ≠ busy →
    ∀ t ∈ l, t.rests = true) ∧ ∀ l, threads[busy]? = some l → Ordered l

theorem thread_of_after {threads started : List (List Task)} {i j : Nat} {l next : List Task}
    (h : (threads.set i next ++ started)[j]? = some l) :
    j = i ∧ l = next ∨ j ≠ i ∧ threads[j]? = some l ∨ l ∈ started := by
  by_cases hj : j < (threads.set i next).length
  · rw [List.getElem?_append_left hj, List.getElem?_set] at h
    split at h
    · split at h
      · exact Or.inl ⟨by omega, (Option.some.inj h).symm⟩
      · cases h
    · exact Or.inr (Or.inl ⟨by omega, h⟩)
  · rw [List.getElem?_append_right (by omega)] at h
    exact Or.inr (Or.inr (List.mem_of_getElem? h))

section Single

variable {c : Connection} {move : Move} {task : Task} {o : Outcome} {rest : List Task}
  {threads : List (List Task)} {thread : Nat}

theorem begun_arrives {others : Multiset Task} {effects : List Effect} {after : Connection}
    (hb : Begins c others move task) :
    (⟨move, c, task, effects, after⟩ : Entry).arrives = true := by
  cases hb <;> rfl

theorem begun_not_rests {others : Multiset Task} (hb : Begins c others move task) :
    task.rests = false := by
  cases hb <;> rfl

/-- Where all threads rest, the one that takes a step is the busy one from here on. -/
theorem single_of_arrival {m : Machine}
    (source : threads = m.threads ∨
      threads = m.threads ++ [[task]] ∧ Begins m.connection m.pending move task)
    (head : threads[thread]? = some (task :: rest)) (ran : c.exec move.outside task = some o)
    (hall : ∀ l ∈ m.threads, ∀ t ∈ l, Task.rests t = true) :
    Single (threads.set thread (o.next ++ rest) ++ o.started) := by
  have hstarted := (exec_turn ran).started_rests
  have htail : ∀ t ∈ rest, t.rests = true :=
    every_source (Q := fun l => ∀ t ∈ l.tail, t.rests = true) source
      (fun l hl t ht => hall l hl t (List.mem_of_mem_tail ht))
      (fun _ _ ht => absurd ht List.not_mem_nil) _ (List.mem_of_getElem? head)
  have hother : ∀ (i : Nat) (l : List Task), threads[i]? = some l → i ≠ thread →
      ∀ t ∈ l, t.rests = true := by
    intro i l hl hi
    rcases source with rfl | ⟨rfl, hb⟩
    · exact hall l (List.mem_of_getElem? hl)
    · by_cases hlt : i < m.threads.length
      · rw [List.getElem?_append_left hlt] at hl
        exact hall l (List.mem_of_getElem? hl)
      · -- Only the new thread stands here, and it is the one that takes the step.
        have hsize := (List.getElem?_eq_some_iff.mp hl).1
        rw [List.length_append, List.length_singleton] at hsize
        have hthread : thread < m.threads.length := by
          have := (List.getElem?_eq_some_iff.mp head).1
          rw [List.length_append, List.length_singleton] at this
          omega
        rw [List.getElem?_append_left hthread] at head
        have hrests := hall _ (List.mem_of_getElem? head) task (List.mem_cons_self ..)
        rw [begun_not_rests hb] at hrests
        cases hrests
  refine ⟨thread, ?_, ?_⟩
  · intro i l hl hi
    rcases thread_of_after hl with ⟨he, _⟩ | ⟨_, hl⟩ | hl
    · exact absurd he hi
    · exact hother i l hl hi
    · exact hstarted l hl
  · intro l hl
    rcases thread_of_after hl with ⟨_, rfl⟩ | ⟨hne, _⟩ | hl
    · exact (ordered_of_rests htail).behind (ordered_of_exec ran)
        fun _ _ _ u hu => still_of_rests (htail u hu)
    · exact absurd rfl hne
    · exact ordered_of_rests (hstarted l hl)

/-- Where nothing arrives, the busy thread goes on and the others go on resting. -/
theorem Single.step (h : Single threads) (head : threads[thread]? = some (task :: rest))
    (ran : c.exec move.outside task = some o)
    (hn : (⟨move, c, task, o.effects, o.connection⟩ : Entry).answer.any isNews = false) :
    Single (threads.set thread (o.next ++ rest) ++ o.started) := by
  obtain ⟨busy, hrests, hbusy⟩ := h
  have hstarted := (exec_turn ran).started_rests
  refine ⟨busy, ?_, ?_⟩
  · intro i l hl hi
    rcases thread_of_after hl with ⟨rfl, rfl⟩ | ⟨_, hl⟩ | hl
    · have hthread := hrests i _ head hi
      refine List.forall_mem_append.mpr ⟨?_, fun t ht => hthread t (List.mem_cons_of_mem _ ht)⟩
      exact (rests_of_exec ran (hthread task (List.mem_cons_self ..)) hn).1
    · exact hrests i l hl hi
    · exact hstarted l hl
  · intro l hl
    rcases thread_of_after hl with ⟨rfl, rfl⟩ | ⟨_, hl⟩ | hl
    · obtain ⟨htask, hrest⟩ := List.pairwise_cons.mp (hbusy _ head)
      refine Ordered.behind hrest (ordered_of_exec ran) fun t ht hturn u hu => ?_
      refine htask u hu ((mayTurn_of_exec ran ht hturn).resolve_right ?_)
      rw [hn]
      exact Bool.false_ne_true
    · exact hbusy l hl
    · exact ordered_of_rests (hstarted l hl)

/-- Where a thread is about to take a step that turns, nothing stirs. -/
theorem Single.isCalm {m : Machine} (h : Single m.threads)
    (head : m.threads[thread]? = some (task :: rest)) (hmay : task.mayTurn = true)
    (hrests : task.rests = false) (hstill : task.stirs = false) : m.isCalm = true := by
  obtain ⟨busy, hother, hbusy⟩ := h
  have hthread : thread = busy := by
    by_contra hne
    rw [hother thread _ head hne task (List.mem_cons_self ..)] at hrests
    cases hrests
  subst hthread
  refine (isCalm_iff m).mpr fun t ht => ?_
  obtain ⟨l, hl, ht⟩ := List.mem_flatten.mp (Multiset.mem_coe.mp ht)
  obtain ⟨j, hj⟩ := List.mem_iff_getElem?.mp hl
  by_cases hsame : j = thread
  · subst hsame
    cases Option.some.inj (hj.symm.trans head)
    rcases List.mem_cons.mp ht with rfl | ht
    · exact hstill
    · exact (List.pairwise_cons.mp (hbusy _ head)).1 t ht hmay
  · exact still_of_rests (hother j l hj hsame t ht)

end Single

theorem single_of_moves {c : Connection} (moves : List Move) (h : OneByOne c moves) :
    Single (History.of c moves).machine.threads := by
  refine Whenever.induction (I := fun h => Single h.machine.threads) ?_ ?_ moves h
  · exact ⟨0, by simp, by simp⟩
  · intro moves move e m' ih hm harrives
    obtain ⟨source, head, ran, he, rfl⟩ := advances_of_move hm
    by_cases ha : e.arrives = true
    · exact single_of_arrival source head ran ((isResting_iff _).mp (harrives ha))
    · subst he
      rcases source with rfl | ⟨_, hb⟩
      · refine ih.step head ran (eq_false_of_ne_true fun hn => ha ?_)
        unfold Entry.arrives
        rw [hn, Bool.or_true]
      · exact absurd (begun_arrives hb) ha

theorem news_of_brought {e : Entry} (h : e.brought.isSome = true) :
    e.answer.any isNews = true := by
  unfold Entry.brought at h
  rcases ha : e.answer with _ | _ | _ | _ <;> rw [ha] at h <;> first | rfl | cases h

theorem isCalm_of_isResting {m : Machine} (h : m.isResting = true) : m.isCalm = true := by
  refine (isCalm_iff m).mpr fun t ht => ?_
  obtain ⟨l, hl, ht⟩ := List.mem_flatten.mp (Multiset.mem_coe.mp ht)
  exact still_of_rests ((isResting_iff m).mp h l hl t ht)

/-- Operations that come one by one are not hurried. -/
theorem unhurried_of_oneByOne {c : Connection} {moves : List Move} (h : OneByOne c moves) :
    Unhurried c moves := by
  rintro i ⟨e, m'⟩ hm hturns
  by_cases ha : e.arrives = true
  · exact isCalm_of_isResting (h i _ hm ha)
  · have hbefore : OneByOne c (moves.take i) := by
      rw [← List.take_append_drop i moves] at h
      exact h.of_append
    have hchange : e.before.session.state.isLive ≠ e.after.session.state.isLive ∨
        e.before.dropped ≠ e.after.dropped := by
      unfold Entry.turns at hturns
      simp only [Bool.or_eq_true, bne_iff_ne] at hturns
      refine hturns.resolve_right fun hb => ha ?_
      unfold Entry.arrives
      rw [news_of_brought hb, Bool.or_true]
    -- What turns without an arrival is a step of the one thread that does not rest.
    obtain ⟨source, head, ran, rfl, -⟩ := advances_of_move hm
    rcases source with rfl | ⟨_, hb⟩
    · obtain ⟨hmay, hrests, hstill⟩ := (exec_turn ran).mayTurn hchange
      exact (single_of_moves _ hbefore).isCalm head hmay hrests hstill
    · exact absurd (begun_arrives hb) ha

end SerialLink.Connection
