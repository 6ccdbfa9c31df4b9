-- The way of the bytes through a connection. A chunk is let in, put to the
-- ring, taken out of it in a batch, and given to the consumer or lost. What
-- each step does to them is said once; no other step touches the ring, the
-- counts or the consumer. Where a law takes the last check of a drain and its
-- call of the consumer for one step, `execWhole` is that step.
import SerialLink.Proofs.Ring.Queue
import SerialLink.Proofs.Connection.Turn

namespace SerialLink

namespace Ring

/-- A put leaves a sound ring: with the data behind what it held, or as it was. -/
theorem put_contents {r : Ring} (h : r.Sound) (data : Bytes) :
    (r.put data).2.Sound ∧ (r.put data).2.capacity = r.capacity ∧
      ((r.put data).1.isOk = true ↔ data = [] ∨ r.size + data.length ≤ r.capacity) ∧
      (r.put data).2.contents = r.contents ++ if (r.put data).1.isOk then data else [] := by
  rcases eq_or_ne data [] with rfl | hd
  · simp [put, h, Except.isOk, Except.toBool]
  · rcases Nat.lt_or_ge r.capacity (r.size + data.length) with hover | hfit
    · rw [put_overflows h hd hover]
      refine ⟨sound_of_eq h rfl (Nat.le_refl _) rfl rfl, rfl, ?_, ?_⟩
      · simp only [Except.isOk, Except.toBool, Bool.false_eq_true, false_iff, hd, false_or]
        omega
      · simp [Except.isOk, Except.toBool]
        rfl
    · obtain ⟨hok, hs, hq⟩ := put_fits h hd hfit
      have hq' := BoundedQueue.mk.inj hq
      rw [hok]
      exact ⟨hs, hq'.2, by simp [Except.isOk, Except.toBool, hfit], hq'.1⟩

theorem contents_drain {r : Ring} (h : r.Sound) :
    r.drain.2.Sound ∧ r.drain.2.capacity = r.capacity ∧ r.drain.2.contents = [] := by
  have hle := Nat.le_refl r.size
  refine ⟨sound_advance h hle, capacity_advance r r.size, ?_⟩
  rw [drain, contents_advance h hle, ← length_contents h, List.drop_length]

end Ring

namespace Connection

/-! ## What happens to bytes -/

/-- Something that happens to bytes on their way. -/
inductive Passage
  /-- A chunk is let in, because its attempt feeds the ring. -/
  | received (bytes : Bytes)
  /-- A chunk is put to the ring while so many bytes wait there; whether it fits. -/
  | put (bytes : Bytes) (waiting : Nat) (fits : Bool)
  /-- A drain takes everything out of the ring. -/
  | took (batch : Bytes)
  | delivered (batch : Bytes)
  /-- A drain that was stopped drops its batch. -/
  | lost (drain : Nat) (batch : Bytes)

/-- A batch that goes to the consumer. -/
def Effect.passage : Effect → Option Passage
  | .delivered _ batch => some (.delivered batch)
  | _ => none

/-- What a task does to bytes by itself. -/
def Task.passages (c : Connection) : Task → List Passage
  | .accept n bytes => if !c.dropped ∧ c.feeding = n then [.received bytes] else []
  | .enqueue bytes => [.put bytes c.ring.size (c.ring.put bytes).1.isOk]
  | .take drain => if c.drainRuns drain then [.took c.ring.contents] else []
  | .deliver drain batch => if c.drainRuns drain then [] else [.lost drain batch]
  | _ => []

/-- What a step does to bytes. -/
def passages (c : Connection) (task : Task) (o : Outcome) : List Passage :=
  task.passages c ++ o.effects.filterMap Effect.passage

namespace Passage

/-- A chunk let in. -/
def letIn : Passage → Option Bytes
  | .received bytes => some bytes
  | _ => none

/-- A chunk put to the ring. -/
def offer : Passage → Option Bytes
  | .put bytes _ _ => some bytes
  | _ => none

/-- A chunk that fitted when it was put. -/
def fit : Passage → Option Bytes
  | .put bytes _ true => some bytes
  | _ => none

/-- A chunk that did not. -/
def refusal : Passage → Option Bytes
  | .put bytes _ false => some bytes
  | _ => none

/-- A batch taken out of the ring. -/
def batch : Passage → Option Bytes
  | .took batch => some batch
  | _ => none

/-- A batch given to the consumer. -/
def delivery : Passage → Option Bytes
  | .delivered batch => some batch
  | _ => none

/-- A batch that this drain dropped. -/
def loss (drain : Nat) : Passage → Option Bytes
  | .lost d batch => if d = drain then some batch else none
  | _ => none

end Passage

/-- What a read thread has yet to do with a chunk, and a drain with a batch. -/
inductive PassesOn : Task → Task → Prop
  | check {n : Nat} {bytes : Bytes} : PassesOn (.accept n bytes) (.check bytes)
  | enqueue {n : Nat} {bytes : Bytes} : PassesOn (.accept n bytes) (.enqueue bytes)
  | deliver {drain : Nat} {batch : Bytes} : PassesOn (.take drain) (.deliver drain batch)
  | rest {drain : Nat} : PassesOn (.take drain) (.pause drain)
  | give {drain : Nat} {batch : Bytes} : PassesOn (.deliver drain batch) (.give drain batch)
  | delivered {drain : Nat} {batch : Bytes} : PassesOn (.give drain batch) (.delivered drain)
  | pause {drain : Nat} {batch : Bytes} : PassesOn (.give drain batch) (.pause drain)
  | again {drain : Nat} : PassesOn (.pause drain) (.take drain)

theorem passesOn_of_worker {c : Connection} {x : Outside} {task : Task} {o : Outcome}
    (h : c.exec x task = some o) (hw : task.isWorker)
    (hr : ∀ number point, task ≠ .read number point) : ∀ t ∈ o.next, PassesOn task t := by
  intro t hmem
  cases task <;> simp only [Task.isWorker, Bool.false_eq_true] at hw <;>
    simp only [exec, Option.some.injEq] at h <;> try subst h
  case read => exact absurd rfl (hr _ _)
  case accept =>
    unfold stepAccept at hmem
    split at hmem
    · simp only [List.mem_cons, List.not_mem_nil, or_false] at hmem
      rcases hmem with rfl | rfl
      · exact .check
      · exact .enqueue
    · cases hmem
  case check => unfold stepCheck at hmem; split at hmem <;> cases hmem
  case enqueue => unfold stepEnqueue at hmem; split at hmem <;> cases hmem
  case take =>
    unfold stepTake at hmem
    split at hmem
    · rw [List.mem_singleton.mp hmem]
      split
      · exact .rest
      · exact .deliver
    · cases hmem
  case deliver =>
    rcases stepDeliver_eq h with ⟨_, rfl⟩ | ⟨_, rfl⟩
    · rw [List.mem_singleton.mp hmem]
      exact .give
    · cases hmem
  case give =>
    simp only [stepGive, List.mem_cons, List.not_mem_nil, or_false] at hmem
    rcases hmem with rfl | rfl
    · exact .delivered
    · exact .pause
  case delivered => cases hmem
  case pause =>
    rw [List.mem_singleton.mp hmem]
    exact .again

/-- What holds of all that a step can leave: tasks of no read thread or drain, the beginnings of
those threads, and what these go on with. -/
theorem leaves_of_exec {q : Task → Prop} {c : Connection} {x : Outside} {task : Task} {o : Outcome}
    (h : c.exec x task = some o) (hother : ∀ t : Task, t.isWorker = false → q t)
    (hbegin : ∀ number, q (.read number .checking)) (htake : ∀ drain, q (.take drain))
    (hread : ∀ number point, task = .read number point → c.stepRead x number point = some o →
      ∀ t ∈ o.next, q t)
    (hpass : ∀ t, PassesOn task t → q t) :
    ∀ t ∈ (o.next : Multiset Task) + (o.started.flatten : Multiset Task), q t := by
  intro t hmem
  by_cases hw : task.isWorker = true
  · rw [(exec_turn h).started_of_worker hw, List.flatten_nil, Multiset.coe_nil, add_zero,
      Multiset.mem_coe] at hmem
    by_cases hr : ∃ number point, task = .read number point
    · obtain ⟨number, point, rfl⟩ := hr
      exact hread number point rfl h t hmem
    · exact hpass t (passesOn_of_worker h hw (fun number point he => hr ⟨number, point, he⟩) t hmem)
  · by_cases ht : t.isWorker = true
    · rcases (exec_turn h).leaves_workers (eq_false_of_ne_true hw) t hmem ht with
        ⟨number, rfl⟩ | ⟨drain, rfl⟩
      · exact hbegin number
      · exact htake drain
    · exact hother t (eq_false_of_ne_true ht)

/-! ## Steps that do nothing to bytes -/

/-- A task that bytes pass through, or that empties the ring. -/
def Task.carries : Task → Bool
  | .accept .. | .enqueue _ | .take _ | .deliver .. | .give .. | .clearRing => true
  | _ => false

/-- Ring and byte counts are as they were, and nothing goes to the consumer. -/
structure SameBytes (c : Connection) (o : Outcome) : Prop where
  ring : o.connection.ring = c.ring
  received : o.connection.totals.received = c.totals.received
  dropped : o.connection.totals.dropped = c.totals.dropped
  quiet : o.effects.filterMap Effect.passage = []

@[simp] theorem takeResources_ring (c : Connection) : c.takeResources.2.ring = c.ring := by
  unfold takeResources
  rcases h : c.session.resources.drain with _ | d <;> simp [h, stopDrain]

@[simp] theorem takeResources_totals (c : Connection) :
    c.takeResources.2.totals = c.totals := by
  unfold takeResources
  rcases h : c.session.resources.drain with _ | d <;> simp [h, stopDrain]

theorem ended_totals (c : Connection) (state : ConnectionState) :
    (c.ended state).totals = c.totals := takeResources_totals c

theorem sameBytes_read {c : Connection} {x : Outside} {number : Nat} {point : Reader.Point Nat}
    {o : Outcome} (h : c.stepRead x number point = some o) : SameBytes c o := by
  obtain ⟨_, _, _, _, _, rfl⟩ := stepRead_eq h
  refine ⟨rfl, rfl, rfl, ?_⟩
  dsimp only
  split <;> rfl

theorem sameBytes_check (c : Connection) (bytes : Bytes) : SameBytes c (c.stepCheck bytes) := by
  unfold stepCheck
  split <;> exact ⟨rfl, rfl, rfl, rfl⟩

theorem sameBytes_write (c : Connection) (data : Bytes) : SameBytes c (c.stepWrite data) := by
  unfold stepWrite
  split <;> exact ⟨rfl, rfl, rfl, rfl⟩

theorem exec_sameBytes {c : Connection} {x : Outside} {task : Task} {o : Outcome}
    (h : c.exec x task = some o) (ht : task.carries = false) : SameBytes c o := by
  cases exec_turn h with
  | worker hw =>
    cases task <;> simp [Task.isWorker, Task.carries] at hw ht <;>
      simp only [exec, Option.some.injEq] at h <;> try subst h
    case read => exact sameBytes_read h
    case check => exact sameBytes_check c _
    case delivered => exact ⟨rfl, rfl, rfl, rfl⟩
    case pause => exact ⟨rfl, rfl, rfl, rfl⟩
  | aside ha =>
    cases task <;> simp [Task.isAside, Task.carries] at ha ht <;>
      simp only [exec, Option.some.injEq] at h <;> subst h
    case write => exact sameBytes_write c _
    all_goals exact ⟨rfl, rfl, rfl, rfl⟩
  | failed | torn => exact ⟨takeResources_ring c, by rw [ended_totals], by rw [ended_totals], rfl⟩
  | letGo =>
    exact ⟨takeResources_ring c, congrArg _ (takeResources_totals c),
      congrArg _ (takeResources_totals c), rfl⟩
  | _ => exact ⟨rfl, rfl, rfl, rfl⟩

/-! ## Any step -/

/-- What a step does to ring and counts, told by what happens to bytes. -/
structure Carries (c d : Connection) (ps : List Passage) : Prop where
  sound : d.ring.Sound
  capacity : d.ring.capacity = c.ring.capacity
  /-- What was in the ring and what is put there is taken out in order, or is there still. -/
  order : c.ring.contents ++ (ps.filterMap Passage.fit).flatten =
    (ps.filterMap Passage.batch).flatten ++ d.ring.contents
  received : d.totals.received = c.totals.received + (ps.filterMap Passage.letIn).flatten.length
  dropped : d.totals.dropped = c.totals.dropped + (ps.filterMap Passage.refusal).flatten.length
  /-- A chunk that does not fit is refused whole, and only then. -/
  whole : ∀ bytes waiting fits, Passage.put bytes waiting fits ∈ ps →
    (fits = true ↔ bytes = [] ∨ waiting + bytes.length ≤ c.ring.capacity)

theorem carries_of_nothing {c : Connection} {o : Outcome} (hs : c.ring.Sound) (h : SameBytes c o) :
    Carries c o.connection [] := by
  refine ⟨?_, ?_, ?_, h.received, h.dropped, by simp⟩
  · rw [h.ring]; exact hs
  · rw [h.ring]
  · rw [h.ring]; simp

theorem passages_of_nothing {c : Connection} {task : Task} {o : Outcome}
    (ht : task.carries = false) (h : SameBytes c o) : passages c task o = [] := by
  have htask : task.passages c = [] := by cases task <;> first | rfl | cases ht
  rw [passages, htask, h.quiet]
  rfl

theorem passages_accept (c : Connection) (n : Nat) (bytes : Bytes) :
    passages c (.accept n bytes) (c.stepAccept n bytes) =
      if !c.dropped ∧ c.feeding = n then [.received bytes] else [] := by
  unfold passages stepAccept Task.passages
  by_cases h : !c.dropped ∧ c.feeding = n
  · simp only [if_pos h]
    rfl
  · simp only [if_neg h]
    rfl

theorem passages_enqueue (c : Connection) (bytes : Bytes) :
    passages c (.enqueue bytes) (c.stepEnqueue bytes) =
      [.put bytes c.ring.size (c.ring.put bytes).1.isOk] := by
  have hquiet : (c.stepEnqueue bytes).effects = [] := by
    unfold stepEnqueue
    split <;> rfl
  rw [passages, hquiet]
  rfl

theorem passages_take (c : Connection) (drain : Nat) :
    passages c (.take drain) (c.stepTake drain) =
      if c.drainRuns drain then [.took c.ring.contents] else [] := by
  unfold passages stepTake Task.passages
  by_cases h : c.drainRuns drain = true
  · simp only [if_pos h]
    rfl
  · simp only [if_neg h]
    rfl

theorem carries_accept {c : Connection} (hs : c.ring.Sound) (n : Nat) (bytes : Bytes) :
    Carries c (c.stepAccept n bytes).connection
      (passages c (.accept n bytes) (c.stepAccept n bytes)) := by
  rw [passages_accept]
  unfold stepAccept
  by_cases h : !c.dropped ∧ c.feeding = n
  · rw [if_pos h, if_pos h]
    refine ⟨hs, rfl, ?_, ?_, rfl, by simp⟩
    · exact List.append_nil _
    · simp [Passage.letIn]
  · rw [if_neg h, if_neg h]
    exact carries_of_nothing (o := { connection := c }) hs ⟨rfl, rfl, rfl, rfl⟩

theorem carries_enqueue {c : Connection} (hs : c.ring.Sound) (bytes : Bytes) :
    Carries c (c.stepEnqueue bytes).connection
      (passages c (.enqueue bytes) (c.stepEnqueue bytes)) := by
  obtain ⟨hsound, hcap, hfit, hcont⟩ := Ring.put_contents hs bytes
  have hwhole : ∀ b waiting fits, Passage.put b waiting fits ∈
      [Passage.put bytes c.ring.size (c.ring.put bytes).1.isOk] →
      (fits = true ↔ b = [] ∨ waiting + b.length ≤ c.ring.capacity) := by
    intro b waiting fits hmem
    rw [List.mem_singleton] at hmem
    cases hmem
    exact hfit
  rw [passages_enqueue]
  unfold stepEnqueue
  rcases hput : c.ring.put bytes with ⟨e | ⟨⟩, ring⟩
  · rw [hput] at hsound hcap hcont hwhole
    refine ⟨hsound, hcap, ?_, rfl, ?_, hwhole⟩
    · exact hcont.symm
    · simp [Passage.refusal, Except.isOk, Except.toBool]
  · rw [hput] at hsound hcap hcont hwhole
    refine ⟨hsound, hcap, ?_, rfl, rfl, hwhole⟩
    rw [hcont]
    simp [Passage.fit, Passage.batch, Except.isOk, Except.toBool, List.filterMap_cons]

theorem carries_take {c : Connection} (hs : c.ring.Sound) (drain : Nat) :
    Carries c (c.stepTake drain).connection
      (passages c (.take drain) (c.stepTake drain)) := by
  obtain ⟨hsound, hcap, hcont⟩ := Ring.contents_drain hs
  rw [passages_take]
  unfold stepTake
  by_cases h : c.drainRuns drain = true
  · rw [if_pos h, if_pos h]
    refine ⟨hsound, hcap, ?_, rfl, rfl, by simp⟩
    simp [Passage.fit, Passage.batch, hcont, List.filterMap_cons]
  · rw [if_neg h, if_neg h]
    exact carries_of_nothing (o := { connection := c }) hs ⟨rfl, rfl, rfl, rfl⟩

theorem carries_deliver {c : Connection} (hs : c.ring.Sound) {drain : Nat} {batch : Bytes}
    {o : Outcome} (h : c.stepDeliver drain batch = some o) :
    Carries c o.connection (passages c (.deliver drain batch) o) := by
  rcases stepDeliver_eq h with ⟨hrun, rfl⟩ | ⟨hrun, rfl⟩
  · simp only [passages, Task.passages, hrun, if_true]
    exact ⟨hs, rfl, List.append_nil _, rfl, rfl, by simp⟩
  · simp only [passages, Task.passages, hrun]
    exact ⟨hs, rfl, List.append_nil _, rfl, rfl, by simp⟩

theorem carries_give {c : Connection} (hs : c.ring.Sound) (drain : Nat) (batch : Bytes) :
    Carries c (c.stepGive drain batch).connection
      (passages c (.give drain batch) (c.stepGive drain batch)) :=
  ⟨hs, rfl, List.append_nil _, rfl, rfl,
    by simp [passages, Task.passages, stepGive, Effect.passage]⟩

/-- Any step but the one that empties the ring carries bytes on as its passages tell. -/
theorem exec_carries {c : Connection} {x : Outside} {task : Task} {o : Outcome}
    (hs : c.ring.Sound) (h : c.exec x task = some o) (hc : task ≠ .clearRing) :
    Carries c o.connection (passages c task o) := by
  by_cases ht : task.carries = true
  · cases task <;> simp [Task.carries] at ht hc <;> simp only [exec, Option.some.injEq] at h <;>
      try subst h
    case accept => exact carries_accept hs _ _
    case enqueue => exact carries_enqueue hs _
    case take => exact carries_take hs _
    case deliver => exact carries_deliver hs h
    case give => exact carries_give hs _ _
  · have hsame := exec_sameBytes h (by simpa using ht)
    rw [passages_of_nothing (by simpa using ht) hsame]
    exact carries_of_nothing hs hsame

/-! ## The call of the consumer -/

/-- A drain that is about to call the consumer, or is with it. -/
def Task.isCalling : Task → Bool
  | .give .. | .delivered _ => true
  | _ => false

/-- What a step does about the consumer: a drain goes there, calls it or comes back, and nothing
else happens there. -/
inductive Calls (c : Connection) : Task → Outcome → Prop
  | goes {drain : Nat} {batch : Bytes} (idle : c.delivering = none)
    (runs : c.drainRuns drain = true) :
    Calls c (.deliver drain batch)
      { connection := { c with delivering := some drain }, next := [.give drain batch] }
  | calls {drain : Nat} {batch : Bytes} : Calls c (.give drain batch) (c.stepGive drain batch)
  | comesBack {drain : Nat} :
    Calls c (.delivered drain) { connection := { c with delivering := none } }
  | elsewhere {task : Task} {o : Outcome} (quiet : task.isCalling = false)
    (stopped : ∀ drain batch, task = .deliver drain batch → c.drainRuns drain = false)
    (same : o.connection.delivering = c.delivering)
    (effects : ∀ drain batch, .delivered drain batch ∉ o.effects)
    (leaves : ∀ t ∈ (o.next : Multiset Task) + (o.started.flatten : Multiset Task),
      t.isCalling = false) : Calls c task o

@[simp] theorem takeResources_delivering (c : Connection) :
    c.takeResources.2.delivering = c.delivering := by
  unfold takeResources
  rcases h : c.session.resources.drain with _ | d <;> simp [h, stopDrain]

section Calls

variable {c : Connection} {x : Outside} {task : Task} {o : Outcome} {drain : Nat} {batch : Bytes}

theorem delivering_of_exec (h : c.exec x task = some o) (hq : task.isCalling = false)
    (hd : ∀ drain batch, task ≠ .deliver drain batch) :
    o.connection.delivering = c.delivering := by
  cases exec_turn h with
  | worker hw =>
    cases task <;> simp only [Task.isWorker, Task.isCalling, Bool.false_eq_true, Bool.true_eq_false]
      at hw hq <;> simp only [exec, Option.some.injEq] at h <;> try subst h
    case read =>
      obtain ⟨_, _, _, _, _, rfl⟩ := stepRead_eq h
      rfl
    case accept => unfold stepAccept; split <;> rfl
    case check => unfold stepCheck; split <;> rfl
    case enqueue => unfold stepEnqueue; split <;> rfl
    case take => unfold stepTake; split <;> rfl
    case deliver => exact absurd rfl (hd _ _)
    case pause => rfl
  | aside ha =>
    cases task <;> simp only [Task.isAside, Bool.false_eq_true] at ha <;>
      simp only [exec, Option.some.injEq] at h <;> subst h
    case write => unfold stepWrite; split <;> rfl
    all_goals rfl
  | failed | torn | letGo => exact takeResources_delivering c
  | _ => rfl

/-- Only a call gives the consumer anything. -/
theorem not_delivered (h : c.exec x task = some o) (hq : task.isCalling = false) :
    .delivered drain batch ∉ o.effects := by
  intro hn
  by_cases ht : task.carries = true
  · cases task <;> simp only [Task.carries, Task.isCalling, Bool.false_eq_true, Bool.true_eq_false]
      at ht hq <;> simp only [exec, Option.some.injEq] at h <;> try subst h
    case accept => unfold stepAccept at hn; split at hn <;> cases hn
    case enqueue => unfold stepEnqueue at hn; split at hn <;> cases hn
    case take => unfold stepTake at hn; split at hn <;> cases hn
    case deliver => rcases stepDeliver_eq h with ⟨_, rfl⟩ | ⟨_, rfl⟩ <;> cases hn
    case clearRing => cases hn
  · have hp : Passage.delivered batch ∈ o.effects.filterMap Effect.passage :=
      List.mem_filterMap.mpr ⟨_, hn, rfl⟩
    rw [(exec_sameBytes h (by simpa using ht)).quiet] at hp
    cases hp

theorem calls_of_exec (h : c.exec x task = some o) : Calls c task o := by
  by_cases hd : ∃ drain batch, task = .deliver drain batch
  · obtain ⟨drain, batch, rfl⟩ := hd
    rcases stepDeliver_eq h with ⟨hrun, rfl⟩ | ⟨hstop, rfl⟩
    · exact .goes (idle_of_deliver h) hrun
    · refine .elsewhere rfl ?_ rfl (by simp) (by simp)
      rintro _ _ he
      cases he
      exact hstop
  · have hno : ∀ drain batch, task ≠ .deliver drain batch :=
      fun drain batch he => hd ⟨drain, batch, he⟩
    by_cases hq : task.isCalling = true
    · cases task <;> simp only [Task.isCalling, Bool.false_eq_true] at hq <;>
        simp only [exec, Option.some.injEq] at h <;> subst h
      case give => exact .calls
      case delivered => exact .comesBack
    · have hq : task.isCalling = false := eq_false_of_ne_true hq
      refine .elsewhere hq (fun drain batch he => absurd he (hno drain batch))
        (delivering_of_exec h hq hno) (fun drain batch => not_delivered h hq) ?_
      refine leaves_of_exec h ?_ (fun _ => rfl) (fun _ => rfl) ?_ ?_
      · intro t hw
        cases t <;> first | rfl | cases hw
      · intro number point _ hr t ht
        obtain ⟨_, _, _, _, _, rfl⟩ := stepRead_eq hr
        rcases mem_afterRead ht with ⟨_, rfl⟩ | ⟨_, _, rfl⟩ | ⟨_, _, _, _, _, rfl⟩ <;> rfl
      · intro t hp
        cases hp with
        | give => exact absurd rfl (hno _ _)
        | delivered => cases hq
        | _ => rfl

end Calls

/-- A step, and with it the call of the consumer that it leads to, with nothing in between. -/
def execWhole (c : Connection) (x : Outside) (task : Task) : Option Outcome :=
  (c.exec x task).bind fun o =>
    match o.next with
    | [.give drain batch] =>
      (o.connection.exec x (.give drain batch)).map fun given =>
        { given with effects := o.effects ++ given.effects, started := o.started ++ given.started }
    | _ => some o

/-- With its call the check of a drain that runs is one step; every other step is whole by
itself. -/
theorem execWhole_cases {c : Connection} {x : Outside} {task : Task} {o : Outcome}
    (h : c.execWhole x task = some o) :
    c.exec x task = some o ∧
        (∀ drain batch, task = .deliver drain batch → c.drainRuns drain = false) ∨
      ∃ drain batch, task = .deliver drain batch ∧ c.delivering = none ∧
        c.drainRuns drain = true ∧ o = { connection := { c with delivering := some drain }
                                         effects := [.delivered drain batch]
                                         next := [.delivered drain, .pause drain] } := by
  obtain ⟨first, hfirst, hrest⟩ := Option.bind_eq_some_iff.mp h
  cases calls_of_exec hfirst with
  | goes hidle hrun => exact Or.inr ⟨_, _, rfl, hidle, hrun, (Option.some.inj hrest).symm⟩
  | calls | comesBack =>
    cases hrest
    exact Or.inl ⟨hfirst, nofun⟩
  | elsewhere _ hstop _ _ hleaves =>
    split at hrest
    · rename_i drain batch hnext
      have hmem : .give drain batch ∈ (first.next : Multiset Task) := by simp [hnext]
      cases hleaves _ (Multiset.mem_add.mpr (Or.inl hmem))
    · cases hrest
      exact Or.inl ⟨hfirst, hstop⟩

theorem exec_of_whole {c : Connection} {x : Outside} {task : Task} {o : Outcome}
    (h : c.execWhole x task = some o)
    (ht : ∀ drain batch, task = .deliver drain batch → c.drainRuns drain = false) :
    c.exec x task = some o := by
  rcases execWhole_cases h with ⟨h, -⟩ | ⟨drain, batch, he, -, hrun, -⟩
  · exact h
  · rw [ht drain batch he] at hrun
    cases hrun

/-- A drain that was stopped goes no further by the whole of a step either. -/
theorem whole_drains_stay {c : Connection} {x : Outside} {task : Task} {o : Outcome}
    (h : c.execWhole x task = some o) {d : Nat} (hd : d < c.drains.length) :
    d < o.connection.drains.length ∧
      (o.connection.drainRuns d = true → c.drainRuns d = true) := by
  rcases execWhole_cases h with ⟨h, -⟩ | ⟨_, _, -, -, -, rfl⟩
  · exact (exec_turn h).drains_stay hd
  · exact ⟨hd, id⟩

theorem whole_carries {c : Connection} {x : Outside} {task : Task} {o : Outcome}
    (hs : c.ring.Sound) (h : c.execWhole x task = some o) (hc : task ≠ .clearRing) :
    Carries c o.connection (passages c task o) := by
  rcases execWhole_cases h with ⟨h, -⟩ | ⟨_, _, rfl, -, hrun, rfl⟩
  · exact exec_carries hs h hc
  · simp only [passages, Task.passages, hrun, if_true]
    exact ⟨hs, rfl, List.append_nil _, rfl, rfl, by simp [Effect.passage]⟩

/-! ## Steps in a row -/

theorem Carries.refl {c : Connection} (hs : c.ring.Sound) : Carries c c [] :=
  ⟨hs, rfl, by simp, by simp, by simp, by simp⟩

theorem Carries.trans {c d e : Connection} {ps qs : List Passage} (h : Carries c d ps)
    (h' : Carries d e qs) : Carries c e (ps ++ qs) := by
  refine ⟨h'.sound, h'.capacity.trans h.capacity, ?_, ?_, ?_, ?_⟩
  · simp only [List.filterMap_append, List.flatten_append]
    rw [← List.append_assoc, h.order, List.append_assoc, h'.order, List.append_assoc]
  · rw [h'.received, h.received, List.filterMap_append, List.flatten_append, List.length_append,
      Nat.add_assoc]
  · rw [h'.dropped, h.dropped, List.filterMap_append, List.flatten_append, List.length_append,
      Nat.add_assoc]
  · intro bytes waiting fits hmem
    rcases List.mem_append.mp hmem with hmem | hmem
    · exact h.whole bytes waiting fits hmem
    · rw [← h.capacity]
      exact h'.whole bytes waiting fits hmem

end Connection

end SerialLink
