-- The lifecycle callbacks. A change of the session calls for one callback of
-- its attempt, and no step makes or forgets another. So over any history the
-- callbacks made and those yet to be made are the changes, one for one.
import SerialLink.Proofs.Connection.Lifecycle

namespace SerialLink.Connection

/-! ## What a change calls for -/

/-- The state that a callback tells of; that of a new attempt is `connecting`, whether or not it
waits for its grant. -/
def Notice.state : Notice → ConnectionState
  | .connecting => .connecting
  | .connected => .connected
  | .disconnected => .disconnected
  | .failed _ => .failed

/-- The attempt and the state that a change of the session is told with. A grant is not told. -/
def due (s s' : Session) : Option (Nat × ConnectionState) :=
  if s'.attempt ≠ s.attempt then some (s'.attempt, .connecting)
  else if s'.state = s.state then none
  else match s'.state with
    | .connected => some (s'.attempt, .connected)
    | .disconnected => some (s'.attempt, .disconnected)
    | .failed => some (s'.attempt, .failed)
    | .awaitingPermission | .connecting => none

/-- The task is the callback of attempt `n` that tells of `s`. -/
def Task.owes (n : Nat) (s : ConnectionState) : Task → Bool
  | .notify attempt notice => attempt == n && notice.state == s
  | _ => false

/-- The effect is the callback of attempt `n` that tells of `s`. -/
def Effect.tells (n : Nat) (s : ConnectionState) : Effect → Bool
  | .notified attempt notice => attempt == n && notice.state == s
  | _ => false

namespace History

/-- Callbacks of attempt `n` made so far that tell of `s`. -/
def told (h : History) (n : Nat) (s : ConnectionState) : Nat := h.effects.countP (·.tells n s)

/-- Callbacks of attempt `n` yet to be made that tell of `s`. -/
def owed (h : History) (n : Nat) (s : ConnectionState) : Nat :=
  h.machine.pending.countP (fun t => t.owes n s)

end History

/-- Changes that are told with attempt `n` and `s`. -/
def changes (es : List Entry) (n : Nat) (s : ConnectionState) : Nat :=
  es.countP fun e => due e.before.session e.after.session = some (n, s)

/-! ## One step -/

section OneStep

variable {n : Nat} {s : ConnectionState}

theorem tells_of_aside {e : Effect} (h : e.isAside) : e.tells n s = false := by
  cases e <;> simp [Effect.isAside] at h <;> rfl

theorem owes_of_worker {t : Task} (h : t.isWorker) : t.owes n s = false := by
  cases t <;> simp [Task.isWorker] at h <;> rfl

theorem owes_of_aside {t : Task} (h : t.isAside) : t.owes n s = false := by
  cases t <;> simp [Task.isAside] at h <;> rfl

theorem owes_releaseTasks (r : Resources) : (releaseTasks r).countP (·.owes n s) = 0 := by
  rw [List.countP_eq_zero]
  intro t ht
  rcases mem_releaseTasks.mp ht with ⟨i, _, rfl | rfl⟩ | ⟨i, _, rfl⟩ | ⟨i, _, rfl⟩ <;>
    simp [Task.owes]

theorem due_same (a : Session) (b : Session) (h : Keeps a b) : due a b = none := by
  simp [due, h.1, h.2]

/-- A step makes the callback that it stands for, and leaves behind the one that its change of the
session calls for. -/
theorem Turn.callbacks {c : Connection} {task : Task} {o : Outcome} (h : Turn c task o) :
    o.effects.countP (·.tells n s) +
        (o.next.countP (·.owes n s) + o.started.flatten.countP (·.owes n s)) =
      (if task.owes n s then 1 else 0) +
        (if due c.session o.connection.session = some (n, s) then 1 else 0) := by
  cases h with
  | worker ht hc he hn hs =>
    have h1 : o.effects.countP (·.tells n s) = 0 :=
      List.countP_eq_zero.mpr fun e hmem => by simp [tells_of_aside (he e hmem)]
    have h2 : o.next.countP (·.owes n s) = 0 := by
      refine List.countP_eq_zero.mpr fun t hmem => ?_
      rcases hn t hmem with hw | ⟨_, _, _, _, _, rfl⟩
      · simp [owes_of_worker hw]
      · simp [Task.owes]
    rw [h1, h2, hs, hc.session, due_same _ _ ⟨rfl, rfl⟩, owes_of_worker ht]
    simp
  | aside ht hc he hn hs =>
    have h1 : o.effects.countP (·.tells n s) = 0 :=
      List.countP_eq_zero.mpr fun e hmem => by simp [tells_of_aside (he e hmem)]
    have h2 : o.next.countP (·.owes n s) = 0 := by
      refine List.countP_eq_zero.mpr fun t hmem => ?_
      obtain ⟨data, port, _, rfl⟩ := hn t hmem
      simp [Task.owes]
    rw [h1, h2, hs, hc.session, due_same _ _ ⟨rfl, rfl⟩, owes_of_aside ht]
    simp
  | idle h =>
    rw [due_same _ _ ⟨rfl, rfl⟩]
    cases h <;> simp [Task.owes]
  | failing h =>
    rw [due_same _ _ ⟨rfl, rfl⟩]
    cases h <;> simp [Task.owes]
  | @begun subscription permitted h =>
    cases permitted <;>
      simp [due, Task.owes, Effect.tells, Notice.state, List.countP_cons]
  | failed hn h =>
    subst hn
    have hne : ConnectionState.failed ≠ c.session.state := by rcases h with h | h <;> simp [h]
    rw [List.countP_append, owes_releaseTasks]
    simp [due, hne, Task.owes, Notice.state, List.countP_cons]
  | torn ha h =>
    have hne : ConnectionState.disconnected ≠ c.session.state := by
      rcases (isLive_iff _).mp h with h | h | h <;> simp [h]
    rw [List.countP_append, owes_releaseTasks]
    simp [due, hne, Task.owes, Notice.state, List.countP_cons]
  | letGo =>
    rw [due_same _ _ ⟨by simp, by simp⟩]
    rw [owes_releaseTasks]
    simp [Task.owes]
  | granted _ h => simp [due, h, Task.owes]
  | completed h =>
    obtain ⟨rfl, hs⟩ := (isConnecting_iff _ _).mp h
    simp [due, hs, Task.owes, Notice.state, List.countP_cons]
  | _ => simp [due, Task.owes, Effect.tells, stopDrain, modifyReader]

/-- No thread begins with a callback. -/
theorem Begins.not_owes {c : Connection} {others : Multiset Task} {move : Move} {task : Task}
    (h : Begins c others move task) : task.owes n s = false := by
  cases h <;> rfl

end OneStep

/-! ## Any moves -/

/-- Callbacks made and callbacks yet to be made are the changes of the session, one for one. -/
theorem told_add_owed (c : Connection) (moves : List Move) (n : Nat) (s : ConnectionState) :
    (History.of c moves).told n s + (History.of c moves).owed n s =
      changes (History.of c moves).entries n s := by
  refine History.of_induction
    (I := fun es _ P => (es.flatMap (·.effects)).countP (·.tells n s) +
      P.countP (fun t => t.owes n s) = changes es n s)
    (by simp [changes]) ?_ moves
  intro es d others task move x o ho hsource
  have hstep := (exec_turn ho).callbacks (n := n) (s := s)
  -- A callback that the task is about to make was owed, unless the move began the thread.
  have hbefore : (es.flatMap (·.effects)).countP (·.tells n s) +
      (others.countP (fun t => t.owes n s) + if task.owes n s then 1 else 0) =
        changes es n s := by
    rcases hsource with h | ⟨h, hb⟩
    · rw [← h, Multiset.countP_cons]
    · rw [← h, hb.not_owes]
      simp
  simp only [changes, List.flatMap_append, List.flatMap_cons, List.flatMap_nil, List.append_nil,
    List.countP_append, List.countP_singleton, Multiset.countP_add, Multiset.coe_countP,
    decide_eq_true_eq, Bool.decide_eq_true] at hstep hbefore ⊢
  omega

/-! ## How often each state is entered -/

/-- How often attempt `n` entered each state, as far as the session tells. -/
structure Tally (es : List Entry) (s : Session) (n : Nat) : Prop where
  begun : changes es n .connecting = if 1 ≤ n ∧ n ≤ s.attempt then 1 else 0
  up_le : changes es n .connected ≤ 1
  not_up : n = s.attempt → s.state = .awaitingPermission ∨ s.state = .connecting →
    changes es n .connected = 0
  not_begun : s.attempt < n → changes es n .connected = 0
  ended : changes es n .failed + changes es n .disconnected =
    if 1 ≤ n ∧ (n < s.attempt ∨ n = s.attempt ∧ s.state.isLive = false) then 1 else 0
  live_pos : s.state.isLive = true → 1 ≤ s.attempt

theorem changes_snoc (es : List Entry) (e : Entry) (n : Nat) (s : ConnectionState) :
    changes (es ++ [e]) n s =
      changes es n s + if due e.before.session e.after.session = some (n, s) then 1 else 0 := by
  simp [changes, List.countP_append, List.countP_singleton]

theorem tally_keeps {es : List Entry} {e : Entry} {n : Nat}
    (h : Tally es e.before.session n) (hk : Keeps e.before.session e.after.session) :
    Tally (es ++ [e]) e.after.session n := by
  have hsame : ∀ s, changes (es ++ [e]) n s = changes es n s := fun s => by
    rw [changes_snoc, due_same _ _ hk]
    simp
  obtain ⟨h1, h2, h3, h4, h5, h6⟩ := h
  rw [← hk.2, ← hk.1] at *
  exact ⟨by rw [hsame, h1], by rw [hsame]; exact h2, by rw [hsame]; exact h3,
    by rw [hsame]; exact h4, by rw [hsame, hsame, h5], h6⟩

/-- A change is told with the attempt that it leads to. -/
theorem due_change {s s' : Session} {task : Task} (h : Change s task s') :
    due s s' = match s.state.isLive, s'.state with
      | false, _ => some (s.attempt + 1, .connecting)
      | true, .connecting => none
      | true, state => some (s.attempt, state) := by
  cases h with
  | begun h h' ha =>
    rw [(not_isLive_iff _).mpr h]
    simp [due, ha]
  | granted h h' ha => simp [due, ha, h, h', ConnectionState.isLive]
  | failed h h' ha => rcases h with h | h <;> simp [due, ha, h, h', ConnectionState.isLive]
  | completed h h' ha => simp [due, ha, h, h', ConnectionState.isLive]
  | ended h h' ha => rcases h with h | h | h <;> simp [due, ha, h, h', ConnectionState.isLive]

theorem tally_change {es : List Entry} {e : Entry} {n : Nat} {s s' : Session} {task : Task}
    (hb : e.before.session = s) (ha : e.after.session = s') (h : Tally es s n)
    (hch : Change s task s') : Tally (es ++ [e]) s' n := by
  have hcount := changes_snoc es e n
  rw [hb, ha, due_change hch] at hcount
  obtain ⟨h1, h2, h3, h4, h5, h6⟩ := h
  -- Each change fixes which count of which attempt goes up; what is left is arithmetic.
  cases hch with
  | begun hs hs' ha =>
    have hrest : s.state.isLive = false := (not_isLive_iff _).mpr hs
    have hlive : s'.state.isLive = true := by
      rw [isLive_iff]; rcases hs' with h | h <;> simp [h]
    simp only [hrest, Option.some.injEq, Prod.mk.injEq] at hcount h5
    constructor <;> grind
  | granted hs hs' ha =>
    simp only [hs, hs', ConnectionState.isLive, reduceCtorEq, if_false, Nat.add_zero] at hcount h5
    constructor <;> grind [ConnectionState.isLive]
  | failed hs hs' ha =>
    have hlive : s.state.isLive = true := by
      rw [isLive_iff]; rcases hs with h | h <;> simp [h]
    simp only [hlive, hs', Option.some.injEq, Prod.mk.injEq] at hcount h5
    constructor <;> grind [ConnectionState.isLive]
  | completed hs hs' ha =>
    simp only [hs, hs', ConnectionState.isLive, Option.some.injEq, Prod.mk.injEq] at hcount h5
    constructor <;> grind [ConnectionState.isLive]
  | ended hs hs' ha =>
    have hlive : s.state.isLive = true := (isLive_iff _).mpr hs
    simp only [hlive, hs', Option.some.injEq, Prod.mk.injEq] at hcount h5
    constructor <;> grind [ConnectionState.isLive]

theorem tally_of_lawful {c d : Connection} {es : List Entry} (h : Lawful c es d)
    (hc : c.session = {}) (n : Nat) : Tally es d.session n := by
  induction h with
  | start =>
    rw [hc]
    refine ⟨?_, ?_, ?_, ?_, ?_, ?_⟩
    · rw [if_neg (show ¬ (1 ≤ n ∧ n ≤ 0) by omega)]
      simp [changes]
    · simp [changes]
    · simp [changes]
    · simp [changes]
    · rw [if_neg (show ¬ (1 ≤ n ∧ (n < 0 ∨ n = 0 ∧ _)) by omega)]
      simp [changes]
    · simp [ConnectionState.isLive]
  | next _ he ih =>
    rcases he with hk | ⟨hch, _⟩
    · exact tally_keeps ih hk
    · exact tally_change rfl rfl ih hch

/-! ## The law -/

/-- Callbacks of attempt `n` that tell of `s`, made or yet to be made. -/
def History.calls (h : History) (n : Nat) (s : ConnectionState) : Nat := h.told n s + h.owed n s

/-- A connection at rest keeps to its lifecycle, whatever moves are made. Every step keeps the
state, or makes one of the changes of a lifecycle for a cause of its own. Each attempt is told to
be connecting once; to be connected once if it came to that, and otherwise never; and to have
failed or to be disconnected once when it is over, as it ended. -/
theorem a_connection_keeps_to_its_lifecycle (device : DeviceInfo) (config : ConnectionConfig)
    (prober : Prober) (moves : List Move) :
    let h := History.of (.new device config prober) moves
    let s := h.machine.connection.session
    Lawful (.new device config prober) h.entries h.machine.connection ∧
      ∀ n, h.calls n .connecting = (if 1 ≤ n ∧ n ≤ s.attempt then 1 else 0) ∧
        h.calls n .connected = changes h.entries n .connected ∧
        h.calls n .connected ≤ 1 ∧
        h.calls n .failed = changes h.entries n .failed ∧
        h.calls n .disconnected = changes h.entries n .disconnected ∧
        h.calls n .failed + h.calls n .disconnected =
          if 1 ≤ n ∧ (n < s.attempt ∨ n = s.attempt ∧ s.state.isLive = false) then 1 else 0 := by
  intro h s
  have hlaw := (lawful_of_moves (.new device config prober) moves).1
  have hcalls : ∀ n s, h.calls n s = changes h.entries n s :=
    told_add_owed (.new device config prober) moves
  refine ⟨hlaw, fun n => ?_⟩
  have htally := tally_of_lawful hlaw rfl n
  simp only [hcalls]
  exact ⟨htally.begun, trivial, htally.up_le, trivial, trivial, htally.ended⟩

end SerialLink.Connection
