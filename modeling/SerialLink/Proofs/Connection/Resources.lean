-- The resources of a connection. Everything that an attempt takes is owned by
-- the session, or some thread has yet to give it back, or it was given back.
-- Each step moves a resource from one of these to the next, so none is lost
-- and none is given back twice.
import Mathlib.Data.Multiset.Bind
import Mathlib.Data.Multiset.Count
import SerialLink.Proofs.Connection.Ownership

namespace SerialLink.Connection

/-! ## The ledger -/

/-- Something that an attempt takes and gives back. -/
inductive Item
  | subscription (number : Nat)
  /-- A reader that the session was given. -/
  | reader (number : Nat)
  /-- A port that the host opened. -/
  | port (number : Nat)
  deriving DecidableEq

def Item.isSubscription : Item → Bool
  | .subscription _ => true
  | _ => false

def Item.isPort : Item → Bool
  | .port _ => true
  | _ => false

/-- What an effect takes. -/
def Effect.taken : Effect → Option Item
  | .subscribed number => some (.subscription number)
  | _ => none

/-- What an effect gives back. -/
def Effect.given : Effect → Option Item
  | .unsubscribed number => some (.subscription number)
  | .closed number => some (.port number)
  | _ => none

/-- What a task brings by itself: the port that the host comes back with, or the reader made for
an attempt that still connects. -/
def Task.brings (c : Connection) : Task → List Item
  | .portOpened _ _ (.ok ()) => [.port c.ports]
  | .recordReader n _ => if c.isConnecting n then [.reader c.readers.length] else []
  | _ => []

/-- What a task stops by itself. -/
def Task.stops : Task → List Item
  | .stopReader number => [.reader number]
  | _ => []

/-- What a step takes. -/
def Entry.taken (e : Entry) : List Item :=
  e.task.brings e.before ++ e.effects.filterMap Effect.taken

/-- What a step gives back. -/
def Entry.given (e : Entry) : List Item := e.task.stops ++ e.effects.filterMap Effect.given

/-- What a session owns. -/
def itemsOf (r : Resources) : List Item :=
  (r.reader.map fun n => [Item.reader n]).getD [] ++
    ((r.subscription.map fun n => [Item.subscription n]).getD [] ++
      (r.port.map fun n => [Item.port n]).getD [])

/-- What a task is about to give back. -/
def Task.owed : Task → List Item
  | .stopReader number => [.reader number]
  | .unsubscribe number => [.subscription number]
  | .closePort number => [.port number]
  | _ => []

/-- What pending tasks are about to give back. -/
def owed (P : Multiset Task) : Multiset Item := P.bind fun t => (t.owed : Multiset Item)

namespace History

/-- All that was taken so far. -/
def taken (h : History) : Multiset Item := (h.entries.flatMap Entry.taken : List Item)

/-- All that was given back so far. -/
def given (h : History) : Multiset Item := (h.entries.flatMap Entry.given : List Item)

end History

theorem owed_cons (t : Task) (P : Multiset Task) :
    owed (t ::ₘ P) = (t.owed : Multiset Item) + owed P := Multiset.cons_bind ..

theorem owed_add (P Q : Multiset Task) : owed (P + Q) = owed P + owed Q := Multiset.add_bind ..

theorem owed_coe (l : List Task) : owed l = (l.flatMap Task.owed : List Item) :=
  Multiset.coe_bind ..

/-- What was owned is what the tasks that release it are about to give back. -/
theorem owed_releaseTasks (r : Resources) : (releaseTasks r).flatMap Task.owed = itemsOf r := by
  obtain ⟨drain, reader, subscription, port⟩ := r
  cases reader <;> cases subscription <;> cases port <;> rfl

theorem itemsOf_with_port {r : Resources} (h : r.port = none) (port : Nat) :
    (itemsOf { r with port := some port } : Multiset Item) = {.port port} + itemsOf r := by
  simp only [itemsOf, h, Option.map_some, Option.map_none, Option.getD_some, Option.getD_none,
    ← Multiset.coe_add, Multiset.coe_singleton, Multiset.coe_nil, add_zero]
  ac_rfl

theorem itemsOf_with_reader {r : Resources} (h : r.reader = none) (number : Nat) :
    (itemsOf { r with reader := some number } : Multiset Item) = {.reader number} + itemsOf r := by
  simp only [itemsOf, h, Option.map_some, Option.map_none, Option.getD_some, Option.getD_none,
    ← Multiset.coe_add, Multiset.coe_singleton, Multiset.coe_nil, zero_add]

theorem owed_eq_zero {P : Multiset Task} (h : ∀ t ∈ P, t.isRelease = false) : owed P = 0 := by
  unfold owed
  rw [Multiset.bind_congr (g := fun _ => 0)]
  · exact Multiset.bind_zero _
  · intro t ht
    have := h t ht
    cases t <;> first | rfl | cases this

/-! ## One step -/

theorem taken_of_aside {effects : List Effect} (h : ∀ e ∈ effects, e.isAside) :
    effects.filterMap Effect.taken = [] := by
  rw [List.filterMap_eq_nil_iff]
  intro e he
  have := h e he
  cases e <;> first | rfl | cases this

theorem given_of_aside {effects : List Effect} (h : ∀ e ∈ effects, e.isAside) :
    effects.filterMap Effect.given = [] := by
  rw [List.filterMap_eq_nil_iff]
  intro e he
  have := h e he
  cases e <;> first | rfl | cases this

/-- What is neither a release nor a stage of opening takes and gives nothing, now or later. -/
theorem nothing_of_worker {t : Task} (h : t.isWorker) (c : Connection) :
    t.brings c = [] ∧ t.stops = [] ∧ t.owed = [] := by
  cases t <;> simp [Task.isWorker] at h <;> exact ⟨rfl, rfl, rfl⟩

theorem nothing_of_aside {t : Task} (h : t.isAside) (c : Connection) :
    t.brings c = [] ∧ t.stops = [] ∧ t.owed = [] := by
  cases t <;> simp [Task.isAside] at h <;> exact ⟨rfl, rfl, rfl⟩

theorem nothing_of_idle {c : Connection} {t : Task} (h : Idle c t) :
    t.brings c = [] ∧ t.stops = [] ∧ t.owed = [] := by
  cases h <;> exact ⟨rfl, rfl, rfl⟩

theorem nothing_of_fails {c : Connection} {t : Task} {n : Nat} {e : ConnectionError}
    (h : Fails c t n e) : t.brings c = [] ∧ t.stops = [] ∧ t.owed = [] := by
  cases h <;> exact ⟨rfl, rfl, rfl⟩

/-- An item passes from one side of the ledger to the other. -/
theorem owed_or_given (owned : Multiset Item) (i : Item) :
    0 + (owned + {i}) = {i} + (owned + 0) := by
  rw [zero_add, add_zero, add_comm]

/-- What a step takes comes to be owned or is given back at once or later, and what it gives back
was owned or about to be given back. -/
theorem Turn.ledger {c : Connection} {others : Multiset Task} {task : Task} {o : Outcome}
    (h : Turn c task o) (hp : Poised c others task) :
    ((task.brings c ++ o.effects.filterMap Effect.taken : List Item) : Multiset Item) +
        ((itemsOf c.session.resources : Multiset Item) + (task.owed : Multiset Item)) =
      ((task.stops ++ o.effects.filterMap Effect.given : List Item) : Multiset Item) +
        ((itemsOf o.connection.session.resources : Multiset Item) +
          ((o.next ++ o.started.flatten).flatMap Task.owed : List Item)) := by
  cases h with
  | worker hw hc he hn hs =>
    obtain ⟨h1, h2, h3⟩ := nothing_of_worker hw c
    have hnext : o.next.flatMap Task.owed = [] := by
      rw [List.flatMap_eq_nil_iff]
      intro t ht
      rcases hn t ht with hw | ⟨_, _, _, _, _, rfl⟩
      · exact (nothing_of_worker hw c).2.2
      · rfl
    rw [h1, h2, h3, taken_of_aside he, given_of_aside he, hs, hc.session]
    simp [hnext]
  | aside hw hc he hn hs =>
    obtain ⟨h1, h2, h3⟩ := nothing_of_aside hw c
    have hnext : o.next.flatMap Task.owed = [] := by
      rw [List.flatMap_eq_nil_iff]
      intro t ht
      obtain ⟨data, port, _, rfl⟩ := hn t ht
      rfl
    rw [h1, h2, h3, taken_of_aside he, given_of_aside he, hs, hc.session]
    simp [hnext]
  | idle hi =>
    obtain ⟨h1, h2, h3⟩ := nothing_of_idle hi
    rw [h1, h2, h3]
    simp
  | failing hf =>
    obtain ⟨h1, h2, h3⟩ := nothing_of_fails hf
    rw [h1, h2, h3]
    simp [Task.owed]
  | @begun subscription permitted hs =>
    -- A session at rest owns nothing that the new subscription would take the place of.
    rw [hp.at_rest hs]
    cases permitted <;>
      simp [Task.brings, Task.stops, Task.owed, Effect.taken, Effect.given, itemsOf]
  | portRecorded hc =>
    -- No earlier port is lost by recording this one; likewise for the reader below.
    have hport := (hp.fits rfl hc).1.1
    rw [itemsOf_with_port hport]
    simp [Task.brings, Task.stops, Task.owed]
  | readerRecorded hc =>
    have hreader := (hp.fits rfl hc).1.2
    rw [itemsOf_with_reader hreader]
    simp [Task.brings, Task.stops, Task.owed, hc]
  | readerOrphaned hc => simp [Task.brings, Task.stops, Task.owed, hc]
  | portOrphaned => exact (owed_or_given _ _).symm
  | failed | torn | letGo =>
    simp only [List.flatten_nil, List.append_nil, List.flatMap_append, owed_releaseTasks]
    simp [Task.brings, Task.stops, Task.owed, itemsOf]
  | readerStopped | unsubscribed | closed => exact owed_or_given _ _
  | _ =>
    simp [Task.brings, Task.stops, Task.owed, Effect.taken, Effect.given, itemsOf,
      List.filterMap_cons]

/-- Ports and readers are numbered as they are taken, so no number is taken twice. -/
theorem Turn.numbers {c : Connection} {task : Task} {o : Outcome} (h : Turn c task o) (n : Nat) :
    ((if n < c.ports then 1 else 0) +
        (task.brings c ++ o.effects.filterMap Effect.taken).count (.port n) =
      if n < o.connection.ports then 1 else 0) ∧
    ((if n < c.readers.length then 1 else 0) +
        (task.brings c ++ o.effects.filterMap Effect.taken).count (.reader n) ≤
      if n < o.connection.readers.length then 1 else 0) := by
  cases h with
  | worker hw hc he =>
    rw [(nothing_of_worker hw c).1, taken_of_aside he, hc.ports, hc.readers]
    simp
  | aside hw hc he =>
    rw [(nothing_of_aside hw c).1, taken_of_aside he, hc.ports, hc.readers]
    simp
  | idle hi =>
    rw [(nothing_of_idle hi).1]
    simp
  | failing hf =>
    rw [(nothing_of_fails hf).1]
    simp
  | portRecorded | portOrphaned =>
    refine ⟨?_, by simp [Task.brings]⟩
    by_cases hn : n = c.ports
    · simp [Task.brings, hn]
    · have hlt : n < c.ports + 1 ↔ n < c.ports := by omega
      simp [Task.brings, Ne.symm hn, hlt]
  | readerRecorded hc =>
    refine ⟨by simp [Task.brings, hc], ?_⟩
    by_cases hn : n = c.readers.length
    · simp [Task.brings, hc, hn]
    · have hlt : n < c.readers.length + 1 ↔ n < c.readers.length := by omega
      simp [Task.brings, hc, Ne.symm hn, hlt]
  | readerOrphaned hc =>
    refine ⟨by simp [Task.brings, hc], ?_⟩
    simp only [Task.brings, hc, Bool.false_eq_true, if_false, List.filterMap_nil, List.append_nil,
      List.count_nil, Nat.add_zero, List.length_append, List.length_singleton]
    split_ifs <;> omega
  | readerStarted | readerStopped =>
    rw [modifyReader_ports, length_modifyReader]
    simp [Task.brings]
  | drainOrphaned =>
    rw [stopDrain_ports, stopDrain_readers]
    simp [Task.brings]
  | _ => simp [Task.brings, Effect.taken, List.filterMap_cons]

/-! ## Drains -/

/-- The task is about to record drain `d`, or to stop it. -/
def Task.awaits (d : Nat) : Task → Bool
  | .recordDrain _ drain => drain == d
  | _ => false

theorem not_awaits_of_not_pipeline {t : Task} (h : t.isPipeline = false) (d : Nat) :
    t.awaits d = false := by
  cases t <;> first | rfl | cases h

/-- Pending tasks that are about to record drain `d`, or to stop it. -/
def awaiting (P : Multiset Task) (d : Nat) : Nat := P.countP fun t => t.awaits d

/-- A drain runs just while the session owns it or a thread is about to record it. -/
def RunsOwned (c : Connection) (P : Multiset Task) (d : Nat) : Prop :=
  (if c.drainRuns d then 1 else 0) =
    (if c.session.resources.drain = some d then 1 else 0) + awaiting P d

theorem awaiting_cons (t : Task) (P : Multiset Task) (d : Nat) :
    awaiting (t ::ₘ P) d = awaiting P d + if t.awaits d then 1 else 0 :=
  Multiset.countP_cons ..

theorem awaiting_add (P Q : Multiset Task) (d : Nat) :
    awaiting (P + Q) d = awaiting P d + awaiting Q d :=
  Multiset.countP_add ..

theorem awaiting_eq_zero {P : Multiset Task} {d : Nat} (h : ∀ t ∈ P, t.awaits d = false) :
    awaiting P d = 0 := by
  rw [awaiting, Multiset.countP_eq_zero]
  intro t ht
  simp [h t ht]

/-- A step that records and stops no drain. -/
theorem RunsOwned.leave {c c' : Connection} {others next : Multiset Task} {task : Task} {d : Nat}
    (hr : RunsOwned c (task ::ₘ others) d) (hd : c'.drains = c.drains)
    (hs : c'.session.resources.drain = c.session.resources.drain) (ht : task.awaits d = false)
    (hn : ∀ t ∈ next, t.awaits d = false) : RunsOwned c' (next + others) d := by
  unfold RunsOwned at hr ⊢
  rw [awaiting_cons, ht] at hr
  rw [awaiting_add, awaiting_eq_zero hn, drainRuns_congr hd, hs, hr]
  simp

/-- A drain that is started is one that a thread is about to record. -/
theorem RunsOwned.start {c c' : Connection} {others : Multiset Task} {task : Task}
    {n drain d : Nat} (rest : Multiset Task) (hr : RunsOwned c (task ::ₘ others) d)
    (ht : task.awaits d = false)
    (hd : c'.drainRuns d = if d = drain then true else c.drainRuns d)
    (hnew : c.drainRuns drain = false)
    (hs : c'.session.resources.drain = c.session.resources.drain)
    (hn : ∀ t ∈ rest, t.awaits d = false) :
    RunsOwned c' ((.recordDrain n drain ::ₘ rest) + others) d := by
  unfold RunsOwned at hr ⊢
  rw [awaiting_cons, ht] at hr
  rw [awaiting_add, awaiting_cons, awaiting_eq_zero hn, hd, hs]
  by_cases h : d = drain
  · subst h
    simp only [hnew, Task.awaits, BEq.rfl, if_true, Bool.false_eq_true, if_false] at hr ⊢
    omega
  · simp only [Task.awaits, h, Ne.symm h, beq_iff_eq, if_false, Bool.false_eq_true] at hr ⊢
    omega

/-- The last stage records the drain that it was given. -/
theorem RunsOwned.record {c c' : Connection} {others next : Multiset Task} {n drain d : Nat}
    (hr : RunsOwned c (.recordDrain n drain ::ₘ others) d) (hd : c'.drains = c.drains)
    (hnone : c.session.resources.drain = none) (hs : c'.session.resources.drain = some drain)
    (hn : ∀ t ∈ next, t.awaits d = false) : RunsOwned c' (next + others) d := by
  unfold RunsOwned at hr ⊢
  rw [awaiting_cons, hnone] at hr
  rw [awaiting_add, awaiting_eq_zero hn, drainRuns_congr hd, hs, hr]
  simp only [Task.awaits, reduceCtorEq, if_false, Option.some.injEq, beq_iff_eq]
  omega

/-- The last stage stops the drain that it was given, if its attempt has ended. -/
theorem RunsOwned.discard {c c' : Connection} {others : Multiset Task} {n drain d : Nat}
    (hr : RunsOwned c (.recordDrain n drain ::ₘ others) d)
    (hd : c'.drainRuns d = if d = drain then false else c.drainRuns d)
    (hs : c'.session.resources.drain = c.session.resources.drain) :
    RunsOwned c' others d := by
  unfold RunsOwned at hr ⊢
  rw [awaiting_cons] at hr
  rw [hd, hs]
  by_cases h : d = drain
  · -- It ran once only, so the session does not own it.
    subst h
    simp only [Task.awaits, BEq.rfl, if_true, Bool.false_eq_true, if_false] at hr ⊢
    split at hr <;> omega
  · simp only [Task.awaits, h, Ne.symm h, beq_iff_eq, if_false] at hr ⊢
    simpa using hr

/-- The end of an attempt, or of the connection, stops the drain that was owned. -/
theorem RunsOwned.stop {c c' : Connection} {others next : Multiset Task} {task : Task} {d : Nat}
    (hr : RunsOwned c (task ::ₘ others) d)
    (hd : c'.drainRuns d = if c.session.resources.drain = some d then false else c.drainRuns d)
    (hs : c'.session.resources.drain = none) (ht : task.awaits d = false)
    (hn : ∀ t ∈ next, t.awaits d = false) : RunsOwned c' (next + others) d := by
  unfold RunsOwned at hr ⊢
  rw [awaiting_cons, ht] at hr
  rw [awaiting_add, awaiting_eq_zero hn, hd, hs]
  by_cases h : c.session.resources.drain = some d
  · -- It ran once only, so no thread is about to record it.
    simp only [h, if_true, Bool.false_eq_true, if_false] at hr ⊢
    split at hr <;> simp at hr ⊢ <;> omega
  · simp only [h, if_false, reduceCtorEq] at hr ⊢
    simpa using hr

theorem Turn.keeps_drains_owned {c : Connection} {others : Multiset Task} {task : Task}
    {o : Outcome} (h : Turn c task o) (hp : Poised c others task) {d : Nat}
    (hr : RunsOwned c (task ::ₘ others) d) :
    RunsOwned o.connection
      ((o.next : Multiset Task) + (o.started.flatten : Multiset Task) + others) d := by
  have hrelease : ∀ t : Task, t.isRelease → t.awaits d = false :=
    fun t ht => not_awaits_of_not_pipeline (not_pipeline_of_release ht) d
  cases h with
  | worker hw hc _ hn hs =>
    have hworker : ∀ t : Task, t.isWorker → t.awaits d = false :=
      fun t ht => not_awaits_of_not_pipeline (not_pipeline_of_worker ht) d
    exact hr.leave hc.drains (by rw [hc.session]) (hworker task hw)
      (leaves_of_worker hn hs hworker (fun _ _ => rfl))
  | aside hw hc _ hn hs =>
    exact hr.leave hc.drains (by rw [hc.session])
      (not_awaits_of_not_pipeline (not_pipeline_of_aside hw) d)
      (leaves_of_aside hn hs (fun _ _ _ => rfl))
  | idle hi => exact hr.leave rfl rfl (by cases hi <;> rfl) (by simp)
  | failing hf => exact hr.leave rfl rfl (by cases hf <;> rfl) (by simp [Task.awaits])
  | @begun subscription permitted =>
    exact hr.leave rfl rfl rfl (by cases permitted <;> simp [Task.awaits])
  | drainStarted =>
    exact hr.start ([.take c.drains.length] : List Task) rfl (drainRuns_new _ _ rfl d)
      (not_drainRuns_ahead c) rfl (by simp [Task.awaits])
  | completed hc => exact hr.record rfl (hp.fits rfl hc).2 rfl (by simp [Task.awaits])
  | drainOrphaned hc =>
    rw [List.flatten_nil, Multiset.coe_nil, zero_add, zero_add]
    exact hr.discard (drainRuns_stopDrain ..) rfl
  | failed | torn => exact hr.stop (drainRuns_ended ..) (by simp) rfl (leaves_of_end hrelease rfl)
  | letGo => exact hr.stop (drainRuns_takeResources ..) (by simp) rfl (leaves_of_drop hrelease)
  | _ => exact hr.leave rfl rfl rfl (by simp [Task.awaits])

/-! ## Any moves -/

/-- Every resource is accounted for. -/
structure Accounted (h : History) : Prop where
  owns : h.machine.connection.dropped = false → Owns h.machine.connection.session
  gone : h.machine.connection.dropped = true → h.machine.connection.session.resources = {}
  /-- What was taken is owned, or about to be given back, or was given back. -/
  ledger : h.taken = h.given +
    (itemsOf h.machine.connection.session.resources + owed h.machine.pending)
  /-- Each port that the host opened was taken once. -/
  ports : ∀ n, h.taken.count (.port n) = if n < h.machine.connection.ports then 1 else 0
  readers : ∀ n, h.taken.count (.reader n) ≤ 1
  /-- A drain runs just while it is owned, or a thread is about to record or to stop it. -/
  drains : ∀ d, RunsOwned h.machine.connection h.machine.pending d

theorem ledger_of_moves (device : DeviceInfo) (config : ConnectionConfig) (prober : Prober)
    (moves : List Move) :
    let h := History.of (.new device config prober) moves
    h.taken = h.given +
      (itemsOf h.machine.connection.session.resources + owed h.machine.pending) := by
  refine (History.guarded_induction (I := fun es c P =>
    ((es.flatMap Entry.taken : List Item) : Multiset Item) = (es.flatMap Entry.given : List Item) +
      (itemsOf c.session.resources + owed P)) rfl ?_ moves).1
  intro es c others task move x o ho hp hsource
  have hturn := (exec_turn ho).ledger hp
  have hbefore : ((es.flatMap Entry.taken : List Item) : Multiset Item) =
      (es.flatMap Entry.given : List Item) +
        (itemsOf c.session.resources + (task.owed + owed others)) := by
    rcases hsource with h | ⟨h, hb⟩
    · rw [h, owed_cons]
    · have hnone : task.owed = [] := by cases hb <;> rfl
      rw [h, hnone, Multiset.coe_nil, zero_add]
  have hnext : owed ((o.next : Multiset Task) + (o.started.flatten : Multiset Task)) =
      ((o.next ++ o.started.flatten).flatMap Task.owed : List Item) := owed_coe _
  rw [List.flatMap_append, List.flatMap_append, List.flatMap_singleton, List.flatMap_singleton,
    ← Multiset.coe_add, ← Multiset.coe_add, owed_add, hnext, hbefore]
  -- What the other tasks owe stands on both sides; between the rest lies the ledger of the step.
  simp only [Entry.taken, Entry.given]
  generalize ((task.brings c ++ o.effects.filterMap Effect.taken : List Item) : Multiset Item) =
    takes at hturn ⊢
  generalize ((task.stops ++ o.effects.filterMap Effect.given : List Item) : Multiset Item) =
    gives at hturn ⊢
  calc _ = (es.flatMap Entry.given : List Item) + owed others +
        (takes + (itemsOf c.session.resources + (task.owed : Multiset Item))) := by ac_rfl
    _ = _ := by
      rw [hturn]
      ac_rfl

theorem numbers_of_moves (device : DeviceInfo) (config : ConnectionConfig) (prober : Prober)
    (moves : List Move) (n : Nat) :
    let h := History.of (.new device config prober) moves
    h.taken.count (.port n) = (if n < h.machine.connection.ports then 1 else 0) ∧
      h.taken.count (.reader n) ≤ if n < h.machine.connection.readers.length then 1 else 0 := by
  refine (History.guarded_induction (I := fun es c _ =>
    ((es.flatMap Entry.taken : List Item) : Multiset Item).count (.port n) =
        (if n < c.ports then 1 else 0) ∧
      ((es.flatMap Entry.taken : List Item) : Multiset Item).count (.reader n) ≤
        if n < c.readers.length then 1 else 0) ⟨rfl, by simp⟩ ?_ moves).1
  intro es c others task move x o ho _ hsource
  obtain ⟨hport, hreader⟩ := (exec_turn ho).numbers n
  have hbefore := hsource.elim id And.left
  rw [List.flatMap_append, List.flatMap_singleton, Multiset.coe_count, Multiset.coe_count,
    List.count_append, List.count_append]
  rw [Multiset.coe_count, Multiset.coe_count] at hbefore
  constructor
  · rw [hbefore.1]
    exact hport
  · exact Nat.le_trans (Nat.add_le_add_right hbefore.2 _) hreader

theorem drains_of_moves (device : DeviceInfo) (config : ConnectionConfig) (prober : Prober)
    (moves : List Move) (d : Nat) :
    let h := History.of (.new device config prober) moves
    RunsOwned h.machine.connection h.machine.pending d := by
  refine (History.guarded_induction (I := fun _ c P => RunsOwned c P d) rfl ?_ moves).1
  intro es c others task move x o ho hp hsource
  refine (exec_turn ho).keeps_drains_owned hp ?_
  rcases hsource with h | ⟨h, hb⟩
  · exact h
  · have hnone : task.awaits d = false := by cases hb <;> rfl
    unfold RunsOwned at h ⊢
    rw [awaiting_cons, hnone]
    exact h

/-! ## The law -/

/-- No thread is opening an attempt, giving one up or releasing what one owned. -/
def Machine.isSettled (m : Machine) : Bool :=
  m.threads.flatten.all fun t => !t.isPipeline && !t.isRelease

theorem isSettled_iff (m : Machine) :
    m.isSettled = true ↔ ∀ t ∈ m.pending, t.isPipeline = false ∧ t.isRelease = false := by
  rw [Machine.isSettled, List.all_eq_true]
  simp only [Machine.pending, Multiset.mem_coe, Bool.and_eq_true, Bool.not_eq_true']

/-- Nothing is owned but what the state of the session calls for, and all else was given back. -/
structure Settled (h : History) (c : Connection) (s : Session) : Prop where
  empty : c.dropped = false → (s.resources = {} ↔ s.state = .disconnected ∨ s.state = .failed)
  waiting : c.dropped = false → s.state = .awaitingPermission →
    ∃ i, s.resources = { subscription := some i }
  still : c.dropped = false → s.state ≠ .connecting
  complete : c.dropped = false → s.state = .connected → ∃ i drain reader port, s.resources =
    { drain := some drain, reader := some reader, subscription := some i, port := some port }
  /-- Calls to subscribe that went well, less calls to unsubscribe. -/
  subscriptions : h.taken.countP (fun i => i.isSubscription) =
    h.given.countP (fun i => i.isSubscription) +
      if s.state.isLive = true ∧ c.dropped = false then 1 else 0
  /-- Ports that the host came back with, less calls to close. -/
  ports : h.taken.countP (fun i => i.isPort) =
    h.given.countP (fun i => i.isPort) + if s.resources.port.isSome then 1 else 0
  held : s.resources.port.isSome = true ↔ s.state = .connected ∧ c.dropped = false
  /-- Each port that the host opened was closed once, but for the one that is held. -/
  closed : ∀ n, h.given.count (.port n) =
    if n < c.ports ∧ s.resources.port ≠ some n then 1 else 0
  /-- Only the drain that is owned runs. -/
  drains : ∀ d, c.drainRuns d = true ↔ s.resources.drain = some d

theorem accounted_of_moves (device : DeviceInfo) (config : ConnectionConfig) (prober : Prober)
    (moves : List Move) : Accounted (History.of (.new device config prober) moves) := by
  have hg := guarded_of_moves device config prober moves
  refine ⟨fun h => (hg.held h).owns, fun h => (hg.gone h).empty,
    ledger_of_moves device config prober moves,
    fun n => (numbers_of_moves device config prober moves n).1, fun n => ?_,
    drains_of_moves device config prober moves⟩
  refine Nat.le_trans (numbers_of_moves device config prober moves n).2 ?_
  split <;> omega

theorem countP_itemsOf (r : Resources) :
    (itemsOf r).countP (·.isSubscription) = (if r.subscription.isSome then 1 else 0) ∧
      (itemsOf r).countP (·.isPort) = (if r.port.isSome then 1 else 0) ∧
      ∀ n, (itemsOf r).count (.port n) = if r.port = some n then 1 else 0 := by
  obtain ⟨drain, reader, subscription, port⟩ := r
  refine ⟨?_, ?_, ?_⟩
  · cases reader <;> cases subscription <;> cases port <;> rfl
  · cases reader <;> cases subscription <;> cases port <;> rfl
  · intro n
    cases reader <;> cases subscription <;> cases port <;> simp [itemsOf, List.count_singleton]

/-- The subscription is owned in every state of an attempt. -/
theorem owns_subscription {s : Session} (h : Owns s) :
    s.resources.subscription.isSome = true ↔ s.state.isLive = true := by
  unfold Owns at h
  cases hs : s.state <;> rw [hs] at h <;> simp only [ConnectionState.isLive]
  · simp [h]
  · obtain ⟨i, hi⟩ := h
    simp [hi]
  · obtain ⟨i, reader, port, hi⟩ := h
    simp [hi]
  · obtain ⟨i, drain, reader, port, hi⟩ := h
    simp [hi]
  · simp [h]

/-- A session that is not about to open its port owns one just when it is connected. -/
theorem owns_port {s : Session} (h : Owns s) (hstill : s.state ≠ .connecting) :
    s.resources.port.isSome = true ↔ s.state = .connected := by
  unfold Owns at h
  cases hs : s.state <;> rw [hs] at h
  · simp [h]
  · obtain ⟨i, hi⟩ := h
    simp [hi]
  · exact absurd hs hstill
  · obtain ⟨i, drain, reader, port, hi⟩ := h
    simp [hi]
  · simp [h]

theorem settled_of_accounted {h : History} (ha : Accounted h)
    (hg : Guarded h.machine.connection h.machine.pending) (hs : h.machine.isSettled = true) :
    Settled h h.machine.connection h.machine.connection.session := by
  rw [isSettled_iff] at hs
  have howed : owed h.machine.pending = 0 := owed_eq_zero fun t ht => (hs t ht).2
  have hpipeline : ∀ t ∈ h.machine.pending, t.isPipeline = false := fun t ht => (hs t ht).1
  have hledger := ha.ledger
  rw [howed, add_zero] at hledger
  obtain ⟨hsub, hport, hcount⟩ := countP_itemsOf h.machine.connection.session.resources
  have hstill : h.machine.connection.dropped = false →
      h.machine.connection.session.state ≠ .connecting := by
    -- An attempt that connects has a stage or its failure to come, and neither is pending.
    intro held hc
    have hled := (hg.held held).led hc
    rw [stages_eq_zero hpipeline, failures_eq_zero hpipeline] at hled
    omega
  have hlive : h.machine.connection.session.resources.subscription.isSome = true ↔
      h.machine.connection.session.state.isLive = true ∧
        h.machine.connection.dropped = false := by
    rcases hd : h.machine.connection.dropped
    · simpa using owns_subscription (ha.owns hd)
    · simp [ha.gone hd]
  have hheld : h.machine.connection.session.resources.port.isSome = true ↔
      h.machine.connection.session.state = .connected ∧
        h.machine.connection.dropped = false := by
    rcases hd : h.machine.connection.dropped
    · simpa using owns_port (ha.owns hd) (hstill hd)
    · simp [ha.gone hd]
  refine ⟨?_, ?_, hstill, ?_, ?_, ?_, hheld, ?_, ?_⟩
  · intro held
    rw [← not_isLive_iff]
    constructor
    · intro he
      have hno := owns_subscription (ha.owns held)
      rw [he] at hno
      simpa using hno
    · intro hl
      exact (owns_at_rest hl).mp (ha.owns held)
  · intro held hwait
    exact (owns_waiting hwait).mp (ha.owns held)
  · intro held hc
    exact (owns_connected hc).mp (ha.owns held)
  · rw [hledger, Multiset.countP_add, Multiset.coe_countP]
    simp only [Bool.decide_eq_true, hsub, hlive]
  · rw [hledger, Multiset.countP_add, Multiset.coe_countP]
    simp only [Bool.decide_eq_true, hport]
  · intro n
    have hn := ha.ports n
    rw [hledger, Multiset.count_add, Multiset.coe_count, hcount] at hn
    by_cases hp : h.machine.connection.session.resources.port = some n
    · rw [if_pos hp] at hn
      rw [if_neg (fun hno => hno.2 hp)]
      split at hn <;> omega
    · rw [if_neg hp, Nat.add_zero] at hn
      rw [hn]
      simp [hp]
  · intro d
    have hd := ha.drains d
    unfold RunsOwned at hd
    rw [awaiting_eq_zero fun t ht => not_awaits_of_not_pipeline (hpipeline t ht) d] at hd
    by_cases hrun : h.machine.connection.drainRuns d = true <;>
      by_cases hown : h.machine.connection.session.resources.drain = some d <;>
      simp [hrun, hown] at hd ⊢

/-- No resource of a connection is lost or given back twice, whatever moves it makes. At any time
all that was taken is owned, about to be given back, or given back. While no thread opens an
attempt or releases one, the session owns what its state calls for, and everything else was given
back: of the subscriptions all but the one of a live attempt, and of the ports, each closed once,
all but the one of a connected attempt. -/
theorem no_resource_is_lost_or_given_back_twice (device : DeviceInfo) (config : ConnectionConfig)
    (prober : Prober) (moves : List Move) :
    let h := History.of (.new device config prober) moves
    Accounted h ∧
      (h.machine.isSettled = true →
        Settled h h.machine.connection h.machine.connection.session) := by
  intro h
  have ha := accounted_of_moves device config prober moves
  have hg := guarded_of_moves device config prober moves
  exact ⟨ha, settled_of_accounted ha hg⟩

/-- A call to disconnect that comes while the host opens the port: the attempt is over, the port
that the host comes back with is closed, and nothing is owned. -/
theorem a_disconnect_during_open_settles :
    let x : Outside :=
      { subscribe := .ok 1, permitted := true, requestPermission := .ok ()
        openPort := fun _ => .ok (), packetSize := fun _ => 64
        setParameters := fun _ _ => .ok (), write := fun _ data => .ok data.length
        read := fun _ _ => none }
    let h := History.of (.new ⟨"usb", Vendor.ftdi, 0x6001, none, none⟩ {} {})
      ([.call .connect x, .step 0 x, .step 0 x, .step 0 x, .call .disconnect x, .step 1 x,
        .step 1 x, .step 0 x, .step 0 x, .step 0 x])
    h.machine.isSettled = true ∧ h.given = {.subscription 1, .port 0} ∧
      Settled h h.machine.connection h.machine.connection.session :=
  ⟨by decide +kernel, by decide +kernel,
    (no_resource_is_lost_or_given_back_twice _ _ _ _).2 (by decide +kernel)⟩

end SerialLink.Connection
