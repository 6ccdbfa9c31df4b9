-- Delivery inside one attempt. Its read thread hands chunks over, its drain
-- takes them out of the ring and gives them to the consumer, and all other
-- threads go on in between. In whatever order they take their steps, what the
-- consumer got, what the drain holds and what waits in the ring are together
-- the chunks that fitted, in the order in which they came.
import SerialLink.Proofs.Connection.Passage

namespace SerialLink.Connection

/-! ## One attempt and its threads -/

/-- A connection while an attempt feeds its ring, with what the attempt's read thread and its
drain have yet to do. -/
structure Flow where
  connection : Connection
  attempt : Nat
  /-- The drain of the attempt. -/
  number : Nat
  reader : List Task := []
  drain : List Task
  /-- What has happened to bytes since the attempt began to feed the ring. -/
  passages : List Passage := []

/-- What happens next; `x` is what the outside answers to the step taken. -/
inductive Choice
  /-- The read thread fetched a chunk for the attempt. -/
  | arrive (bytes : Bytes)
  | reader (x : Outside)
  | drain (x : Outside)
  /-- A step of any other thread. -/
  | elsewhere (task : Task) (x : Outside)

/-- Left to the threads of the attempt while it feeds the ring: only its read thread puts to the
ring, only its drain takes from it and delivers, and it is emptied for the next attempt only. A
call of the consumer is never alone: it goes with the check that it comes behind. -/
def Task.isReserved (c : Connection) (number : Nat) : Task → Bool
  | .clearRing | .enqueue _ | .give .. => true
  | .accept n _ => c.feeding == n
  | .take drain | .deliver drain _ => drain == number || c.drainRuns drain
  | _ => false

/-- The chunk that a task is about to put to the ring. -/
def Task.chunk : Task → Option Bytes
  | .enqueue bytes => some bytes
  | _ => none

/-- The batch that a task is about to deliver. -/
def Task.batch : Task → Option Bytes
  | .deliver _ batch => some batch
  | _ => none

namespace Flow

/-- An attempt begins to feed the ring: it is emptied, the attempt is let in, and a drain is
started. -/
def begin (c : Connection) (attempt : Nat) : Flow :=
  { connection := { c with
      ring := c.ring.clear
      feeding := attempt
      drains := c.drains ++ [{ attempt }] }
    attempt, number := c.drains.length, drain := [.take c.drains.length] }

/-- The flow behind a step of `task`. -/
def ran (f : Flow) (task : Task) (o : Outcome) : Flow :=
  { f with
    connection := o.connection
    passages := f.passages ++ Connection.passages f.connection task o }

/-- A thread that cannot go on, or work that is not for other threads, is passed over. -/
def step (f : Flow) : Choice → Flow
  | .arrive bytes => { f with reader := f.reader ++ [.accept f.attempt bytes] }
  | .reader x =>
    match f.reader with
    | [] => f
    | task :: rest =>
      match f.connection.execWhole x task with
      | none => f
      | some o => { f.ran task o with reader := o.next ++ rest }
  | .drain x =>
    match f.drain with
    | [] => f
    | task :: rest =>
      match f.connection.execWhole x task with
      | none => f
      | some o => { f.ran task o with drain := o.next ++ rest }
  | .elsewhere task x =>
    if task.isReserved f.connection f.number then f
    else
      match f.connection.execWhole x task with
      | none => f
      | some o => f.ran task o

/-- The flow after some choices. -/
def after (f : Flow) (choices : List Choice) : Flow := choices.foldl step f

/-- The chunk that was let in and is about to be put to the ring. -/
def inFlight (f : Flow) : List Bytes := f.reader.filterMap Task.chunk

/-- The batch that was taken out of the ring and is about to be delivered. -/
def inHand (f : Flow) : Bytes := (f.drain.filterMap Task.batch).flatten

/-- The bytes that the consumer was given, in order. -/
def delivered (f : Flow) : Bytes := (f.passages.filterMap Passage.delivery).flatten

/-- The chunks that were let in, in order. -/
def received (f : Flow) : List Bytes := f.passages.filterMap Passage.letIn

/-- The chunks that fitted when they were put to the ring, in order. -/
def fitting (f : Flow) : List Bytes := f.passages.filterMap Passage.fit

/-- The chunks that did not. -/
def refused (f : Flow) : List Bytes := f.passages.filterMap Passage.refusal

/-- The batch that the drain dropped because it was stopped. -/
def lost (f : Flow) : Bytes := (f.passages.filterMap (Passage.loss f.number)).flatten

end Flow

/-! ## The threads of the attempt -/

/-- Where the read thread may stand. -/
inductive Reading (attempt : Nat) : List Task → Prop
  | idle (chunks : List Bytes) : Reading attempt (chunks.map (.accept attempt))
  | checking (bytes : Bytes) (chunks : List Bytes) :
    Reading attempt (.check bytes :: .enqueue bytes :: chunks.map (.accept attempt))
  | putting (bytes : Bytes) (chunks : List Bytes) :
    Reading attempt (.enqueue bytes :: chunks.map (.accept attempt))

/-- Where the drain may stand, with the batches that it dropped. It drops nothing while it goes on,
and it ends only when it was stopped. -/
inductive Draining (c : Connection) (number : Nat) : List Task → List Bytes → Prop
  | taking : Draining c number [.take number] []
  | holding (batch : Bytes) : Draining c number [.deliver number batch] []
  | giving : Draining c number [.delivered number, .pause number] []
  | pausing : Draining c number [.pause number] []
  | gone {losses : List Bytes} (h : c.drainRuns number = false) : Draining c number [] losses

theorem Draining.stay {c d : Connection} {number : Nat} {ts : List Task} {losses : List Bytes}
    (h : Draining c number ts losses) (hd : d.drainRuns number = true → c.drainRuns number = true) :
    Draining d number ts losses := by
  cases h with
  | gone h =>
    refine .gone (eq_false_of_ne_true ?_)
    intro hr
    rw [hd hr] at h
    cases h
  | taking => exact .taking
  | holding => exact .holding _
  | giving => exact .giving
  | pausing => exact .pausing

/-- What every step keeps of the connection that the attempt began with, `c`, and what came of it
and of the two threads. -/
structure Good (c d : Connection) (attempt number : Nat) (reader drain : List Task)
    (ps : List Passage) : Prop where
  carries : Carries c d ps
  reading : Reading attempt reader
  /-- Every chunk let in was put to the ring, but for the one in flight. -/
  offers : ps.filterMap Passage.letIn = ps.filterMap Passage.offer ++ reader.filterMap Task.chunk
  draining : Draining d number drain (ps.filterMap (Passage.loss number))
  /-- Every batch was delivered, but for the last one. -/
  batches : (ps.filterMap Passage.batch).flatten = (ps.filterMap Passage.delivery).flatten ++
    (drain.filterMap Task.batch).flatten ++ (ps.filterMap (Passage.loss number)).flatten
  known : number < d.drains.length

/-! ## One step -/

section OneStep

variable {c d : Connection} {attempt number : Nat} {reader drain rest : List Task}
  {ps : List Passage} {task : Task} {x : Outside} {o : Outcome}

/-- No other thread calls the consumer. -/
theorem exec_of_elsewhere (h : d.execWhole x task = some o)
    (hr : task.isReserved d number = false) : d.exec x task = some o := by
  refine exec_of_whole h ?_
  rintro k batch rfl
  simp only [Task.isReserved, Bool.or_eq_false_iff] at hr
  exact hr.2

/-- Other threads only drop the batches of drains that were stopped before. -/
theorem elsewhere_passages (h : d.exec x task = some o) (hr : task.isReserved d number = false) :
    ∀ p ∈ passages d task o, ∃ k batch, p = .lost k batch ∧ k ≠ number := by
  by_cases ht : task.carries = true
  · cases task <;> simp [Task.carries] at ht <;> simp [Task.isReserved] at hr <;>
      simp only [exec, Option.some.injEq] at h
    case accept n bytes =>
      subst h
      rw [passages_accept, if_neg (fun hno => hr hno.2)]
      simp
    case take k =>
      subst h
      rw [passages_take, if_neg (by simp [hr.2])]
      simp
    case deliver k batch =>
      rcases stepDeliver_eq h with ⟨hrun, _⟩ | ⟨_, rfl⟩
      · rw [hr.2] at hrun
        cases hrun
      · simp only [passages, Task.passages, hr.2]
        intro p hp
        simp at hp
        exact ⟨k, batch, hp, hr.1⟩
  · rw [passages_of_nothing (by simpa using ht) (exec_sameBytes h (by simpa using ht))]
    simp

theorem filterMap_elsewhere {ps : List Passage}
    (h : ∀ p ∈ ps, ∃ k batch, p = .lost k batch ∧ k ≠ number) {g : Passage → Option Bytes}
    (hg : ∀ k batch, k ≠ number → g (.lost k batch) = none) : ps.filterMap g = [] := by
  rw [List.filterMap_eq_nil_iff]
  intro p hp
  obtain ⟨k, batch, rfl, hk⟩ := h p hp
  exact hg k batch hk

/-- A step of another thread. -/
theorem good_elsewhere (hg : Good c d attempt number reader drain ps)
    (h : d.exec x task = some o) (hr : task.isReserved d number = false) :
    Good c o.connection attempt number reader drain (ps ++ passages d task o) := by
  have hps := elsewhere_passages h hr
  have hclear : task ≠ .clearRing := by
    intro he
    rw [he] at hr
    cases hr
  have hstay := (exec_turn h).drains_stay hg.known
  have hloss := filterMap_elsewhere hps (g := Passage.loss number)
    (fun k b hk => by simp [Passage.loss, hk])
  refine ⟨hg.carries.trans (exec_carries hg.carries.sound h hclear), hg.reading, ?_, ?_, ?_,
    hstay.1⟩
  · rw [List.filterMap_append, List.filterMap_append,
      filterMap_elsewhere hps (fun _ _ _ => rfl), filterMap_elsewhere hps (fun _ _ _ => rfl),
      List.append_nil, List.append_nil]
    exact hg.offers
  · rw [List.filterMap_append, hloss, List.append_nil]
    exact hg.draining.stay hstay.2
  · rw [List.filterMap_append, List.filterMap_append, List.filterMap_append, hloss,
      filterMap_elsewhere hps (fun _ _ _ => rfl), filterMap_elsewhere hps (fun _ _ _ => rfl),
      List.append_nil, List.append_nil, List.append_nil]
    exact hg.batches

theorem chunk_of_accepts (attempt : Nat) (chunks : List Bytes) :
    (chunks.map (Task.accept attempt)).filterMap Task.chunk = [] := by
  rw [List.filterMap_eq_nil_iff]
  intro t ht
  obtain ⟨bytes, _, rfl⟩ := List.mem_map.mp ht
  rfl

/-- The read thread goes on to `reader'`, and all that happens to bytes is that chunks are let in
and put to the ring. -/
theorem Good.read_on {d' : Connection} {reader' : List Task} {qs : List Passage}
    (hg : Good c d attempt number reader drain ps) (hc : Carries d d' qs)
    (hd : number < d'.drains.length ∧ (d'.drainRuns number = true → d.drainRuns number = true))
    (hr : Reading attempt reader')
    (hchunk : reader.filterMap Task.chunk ++ qs.filterMap Passage.letIn =
      qs.filterMap Passage.offer ++ reader'.filterMap Task.chunk)
    (hq : qs.filterMap Passage.batch = [] ∧ qs.filterMap Passage.delivery = [] ∧
      qs.filterMap (Passage.loss number) = []) :
    Good c d' attempt number reader' drain (ps ++ qs) := by
  obtain ⟨hbatch, hdelivery, hloss⟩ := hq
  refine ⟨hg.carries.trans hc, hr, ?_, ?_, ?_, hd.1⟩
  · rw [List.filterMap_append, List.filterMap_append, hg.offers, List.append_assoc, hchunk,
      List.append_assoc]
  · rw [List.filterMap_append, hloss, List.append_nil]
    exact hg.draining.stay hd.2
  · rw [List.filterMap_append, List.filterMap_append, List.filterMap_append, hbatch, hdelivery,
      hloss, List.append_nil, List.append_nil, List.append_nil]
    exact hg.batches

/-- The drain goes on to `drain'`, and all that happens to bytes is that a batch is taken,
delivered or dropped. -/
theorem Good.drain_on {d' : Connection} {drain' : List Task} {qs : List Passage}
    (hg : Good c d attempt number reader drain ps) (hc : Carries d d' qs)
    (hd : number < d'.drains.length)
    (hnone : ps.filterMap (Passage.loss number) = [])
    (hr : Draining d' number drain' (qs.filterMap (Passage.loss number)))
    (hbatch : (drain.filterMap Task.batch).flatten ++ (qs.filterMap Passage.batch).flatten =
      (qs.filterMap Passage.delivery).flatten ++ (drain'.filterMap Task.batch).flatten ++
        (qs.filterMap (Passage.loss number)).flatten)
    (hq : qs.filterMap Passage.letIn = [] ∧ qs.filterMap Passage.offer = []) :
    Good c d' attempt number reader drain' (ps ++ qs) := by
  obtain ⟨hin, hoffer⟩ := hq
  refine ⟨hg.carries.trans hc, hg.reading, ?_, ?_, ?_, hd⟩
  · rw [List.filterMap_append, List.filterMap_append, hin, hoffer, List.append_nil, List.append_nil]
    exact hg.offers
  · rw [List.filterMap_append, hnone]
    exact hr
  · have hb := hg.batches
    rw [hnone, List.flatten_nil, List.append_nil] at hb
    rw [List.filterMap_append, List.filterMap_append, List.filterMap_append, hnone,
      List.flatten_append, List.flatten_append, List.flatten_append, hb, List.append_assoc, hbatch]
    simp only [List.flatten_nil, List.nil_append, List.append_assoc]

/-- A step of the read thread. -/
theorem good_reader (hg : Good c d attempt number (task :: rest) drain ps)
    (h : d.exec x task = some o) :
    Good c o.connection attempt number (o.next ++ rest) drain (ps ++ passages d task o) := by
  have hd := (exec_turn h).drains_stay hg.known
  have hcarries := fun hclear => exec_carries hg.carries.sound h hclear
  have hreading := hg.reading
  generalize hts : task :: rest = ts at hreading
  cases hreading with
  | idle chunks =>
    cases chunks with
    | nil => cases hts
    | cons bytes chunks =>
      obtain ⟨rfl, rfl⟩ := List.cons.inj hts
      simp only [exec, Option.some.injEq] at h
      subst h
      rw [passages_accept] at hcarries ⊢
      unfold stepAccept at hcarries hd ⊢
      by_cases hin : !d.dropped ∧ d.feeding = attempt
      · rw [if_pos hin] at hcarries hd ⊢
        rw [if_pos hin] at hcarries ⊢
        refine hg.read_on (hcarries (by simp)) hd (.checking bytes chunks) ?_ ⟨rfl, rfl, rfl⟩
        show (chunks.map (Task.accept attempt)).filterMap Task.chunk ++ [bytes] =
          bytes :: (chunks.map (Task.accept attempt)).filterMap Task.chunk
        rw [chunk_of_accepts]
        rfl
      · rw [if_neg hin] at hcarries hd ⊢
        rw [if_neg hin] at hcarries ⊢
        exact hg.read_on (hcarries (by simp)) hd (.idle chunks) (List.append_nil _)
          ⟨rfl, rfl, rfl⟩
  | checking bytes chunks =>
    obtain ⟨rfl, rfl⟩ := List.cons.inj hts
    rw [passages_of_nothing rfl (exec_sameBytes h rfl)] at hcarries ⊢
    have hnext : o.next = [] := by
      simp only [exec, Option.some.injEq] at h
      subst h
      unfold stepCheck
      split <;> rfl
    rw [hnext]
    exact hg.read_on (hcarries (by simp)) hd (.putting bytes chunks) (List.append_nil _)
      ⟨rfl, rfl, rfl⟩
  | putting bytes chunks =>
    obtain ⟨rfl, rfl⟩ := List.cons.inj hts
    simp only [exec, Option.some.injEq] at h
    subst h
    rw [passages_enqueue] at hcarries ⊢
    have hnext : (d.stepEnqueue bytes).next = [] := by
      unfold stepEnqueue
      split <;> rfl
    rw [hnext]
    exact hg.read_on (hcarries (by simp)) hd (.idle chunks)
      (by simp [Task.chunk, Passage.letIn, Passage.offer]) ⟨rfl, rfl, rfl⟩

/-- A step of the drain. -/
theorem good_drain (hg : Good c d attempt number reader (task :: rest) ps)
    (h : d.execWhole x task = some o) :
    Good c o.connection attempt number reader (o.next ++ rest) (ps ++ passages d task o) := by
  have hd := whole_drains_stay h hg.known
  have hcarries := fun hclear => whole_carries hg.carries.sound h hclear
  have hdraining := hg.draining
  generalize hts : task :: rest = ts at hdraining
  generalize hlosses : ps.filterMap (Passage.loss number) = losses at hdraining
  cases hdraining with
  | taking =>
    obtain ⟨rfl, rfl⟩ := List.cons.inj hts
    replace h := exec_of_whole h fun _ _ he => by cases he
    simp only [exec, Option.some.injEq] at h
    subst h
    rw [passages_take] at hcarries ⊢
    by_cases hrun : d.drainRuns number = true
    · rw [if_pos hrun] at hcarries ⊢
      by_cases hempty : d.ring.contents = []
      · have hnext : (d.stepTake number).next = [.pause number] := by
          simp [stepTake, hrun, Ring.drain, hempty]
        rw [hnext]
        exact hg.drain_on (hcarries (by simp)) hd.1 hlosses .pausing
          (by simp [Task.batch, Passage.batch, Passage.delivery, Passage.loss, hempty,
            List.filterMap_cons])
          ⟨rfl, rfl⟩
      · have hnext : (d.stepTake number).next = [.deliver number d.ring.contents] := by
          simp [stepTake, hrun, Ring.drain, hempty]
        rw [hnext]
        exact hg.drain_on (hcarries (by simp)) hd.1 hlosses (.holding _)
          (by simp [Task.batch, Passage.batch, Passage.delivery, Passage.loss, List.filterMap_cons])
          ⟨rfl, rfl⟩
    · rw [if_neg hrun] at hcarries ⊢
      have hnext : (d.stepTake number).next = [] := by simp [stepTake, hrun]
      rw [hnext]
      exact hg.drain_on (hcarries (by simp)) hd.1 hlosses
        (.gone (eq_false_of_ne_true fun hr => hrun (hd.2 hr))) rfl ⟨rfl, rfl⟩
  | holding batch =>
    obtain ⟨rfl, rfl⟩ := List.cons.inj hts
    rcases execWhole_cases h with ⟨h, hstop⟩ | ⟨_, _, he, -, hrun, rfl⟩
    · have hrun := hstop number batch rfl
      rcases stepDeliver_eq h with ⟨hno, _⟩ | ⟨_, rfl⟩
      · rw [hrun] at hno
        cases hno
      · simp only [passages, Task.passages, hrun] at hcarries ⊢
        exact hg.drain_on (hcarries (by simp)) hd.1 hlosses (.gone hrun)
          (by simp [Task.batch, Passage.batch, Passage.delivery, Passage.loss, List.filterMap_cons])
          ⟨rfl, rfl⟩
    · cases he
      simp only [passages, Task.passages, hrun, if_true] at hcarries ⊢
      exact hg.drain_on (hcarries (by simp)) hd.1 hlosses .giving
        (by simp [Task.batch, Passage.batch, Passage.delivery, Passage.loss, Effect.passage,
          List.filterMap_cons])
        ⟨rfl, rfl⟩
  | giving =>
    obtain ⟨rfl, rfl⟩ := List.cons.inj hts
    replace h := exec_of_whole h fun _ _ he => by cases he
    rw [passages_of_nothing rfl (exec_sameBytes h rfl)] at hcarries ⊢
    simp only [exec, Option.some.injEq] at h
    subst h
    exact hg.drain_on (hcarries (by simp)) hd.1 hlosses .pausing rfl ⟨rfl, rfl⟩
  | pausing =>
    obtain ⟨rfl, rfl⟩ := List.cons.inj hts
    replace h := exec_of_whole h fun _ _ he => by cases he
    rw [passages_of_nothing rfl (exec_sameBytes h rfl)] at hcarries ⊢
    simp only [exec, Option.some.injEq] at h
    subst h
    exact hg.drain_on (hcarries (by simp)) hd.1 hlosses .taking rfl ⟨rfl, rfl⟩
  | gone => cases hts

/-- Only a drain that runs delivers. -/
theorem no_delivery {d : Connection} {x : Outside} {task : Task} {o : Outcome}
    (h : d.exec x task = some o) (hcall : ∀ k batch, task ≠ .give k batch)
    (ht : ∀ k batch, task = .deliver k batch → d.drainRuns k = false) :
    (passages d task o).filterMap Passage.delivery = [] := by
  by_cases hc : task.carries = true
  · cases task <;> simp [Task.carries] at hc <;> simp only [exec, Option.some.injEq] at h
    case accept n bytes =>
      subst h
      rw [passages_accept]
      split <;> rfl
    case enqueue bytes =>
      subst h
      rw [passages_enqueue]
      rfl
    case take k =>
      subst h
      rw [passages_take]
      split <;> rfl
    case deliver k batch =>
      have hstop := ht k batch rfl
      rcases stepDeliver_eq h with ⟨hrun, _⟩ | ⟨_, rfl⟩
      · rw [hstop] at hrun
        cases hrun
      · simp only [passages, Task.passages, hstop]
        rfl
    case give k batch => exact absurd rfl (hcall k batch)
    case clearRing =>
      subst h
      rfl
  · rw [passages_of_nothing (by simpa using hc) (exec_sameBytes h (by simpa using hc))]
    rfl

/-- The read thread does not go to the consumer. -/
theorem Reading.stays_away (h : Reading attempt (task :: rest)) (k : Nat) (batch : Bytes) :
    task ≠ .deliver k batch ∧ task ≠ .give k batch := by
  generalize hts : task :: rest = ts at h
  cases h with
  | idle chunks =>
    cases chunks with
    | nil => cases hts
    | cons bytes chunks =>
      obtain ⟨rfl, _⟩ := List.cons.inj hts
      simp
  | checking | putting =>
    obtain ⟨rfl, _⟩ := List.cons.inj hts
    simp

theorem Draining.deliver_own {losses : List Bytes} {k : Nat} {batch : Bytes}
    (h : Draining d number (.deliver k batch :: rest) losses) : k = number := by
  cases h
  rfl

theorem Draining.not_give {losses : List Bytes} (h : Draining d number (task :: rest) losses)
    (k : Nat) (batch : Bytes) : task ≠ .give k batch := by
  rintro rfl
  cases h

theorem Reading.arrive (h : Reading attempt reader) (bytes : Bytes) :
    Reading attempt (reader ++ [.accept attempt bytes]) := by
  have hmap : ∀ chunks : List Bytes, chunks.map (Task.accept attempt) ++ [.accept attempt bytes] =
      (chunks ++ [bytes]).map (Task.accept attempt) := by
    intro chunks
    rw [List.map_append]
    rfl
  cases h with
  | idle chunks =>
    rw [hmap]
    exact .idle _
  | checking b chunks =>
    rw [List.cons_append, List.cons_append, hmap]
    exact .checking b _
  | putting b chunks =>
    rw [List.cons_append, hmap]
    exact .putting b _

end OneStep

namespace Flow

/-- What every step keeps of the connection that the attempt began with. -/
def IsGood (c : Connection) (f : Flow) : Prop :=
  Good c f.connection f.attempt f.number f.reader f.drain f.passages

theorem good_begin {c : Connection} (hs : c.ring.Sound) (attempt : Nat) :
    IsGood (begin c attempt).connection (begin c attempt) := by
  refine ⟨.refl (Ring.sound_clear hs), .idle [], rfl, .taking, rfl, ?_⟩
  simp [begin]

theorem good_step {c : Connection} {f : Flow} (hg : f.IsGood c) (choice : Choice) :
    (f.step choice).IsGood c := by
  cases choice with
  | arrive bytes =>
    refine ⟨hg.carries, hg.reading.arrive bytes, ?_, hg.draining, hg.batches, hg.known⟩
    have hnone : [Task.accept f.attempt bytes].filterMap Task.chunk = [] := rfl
    rw [step, List.filterMap_append, hnone, List.append_nil]
    exact hg.offers
  | reader x =>
    simp only [step]
    split
    · exact hg
    · rename_i task rest hf
      split
      · exact hg
      · rename_i o ho
        unfold IsGood at hg
        rw [hf] at hg
        have hread : Reading f.attempt (task :: rest) := hg.reading
        exact good_reader hg
          (exec_of_whole ho fun k batch he => absurd he (hread.stays_away k batch).1)
  | drain x =>
    simp only [step]
    split
    · exact hg
    · rename_i task rest hf
      split
      · exact hg
      · rename_i o ho
        unfold IsGood at hg
        rw [hf] at hg
        exact good_drain hg ho
  | elsewhere task x =>
    simp only [step]
    split
    · exact hg
    · rename_i hr
      split
      · exact hg
      · rename_i o ho
        have hfree : task.isReserved f.connection f.number = false := by simpa using hr
        exact good_elsewhere hg (exec_of_elsewhere ho hfree) hfree

theorem good_after {c : Connection} {f : Flow} (hg : f.IsGood c) (choices : List Choice) :
    (f.after choices).IsGood c := by
  unfold after
  induction choices generalizing f with
  | nil => exact hg
  | cons choice choices ih => exact ih (good_step hg choice)

/-! ## A drain that was stopped -/

/-- Once the drain was stopped, the consumer is given nothing more. -/
theorem stopped_step {c : Connection} {f : Flow} (hg : f.IsGood c)
    (hstop : f.connection.drainRuns f.number = false) (choice : Choice) :
    (f.step choice).connection.drainRuns f.number = false ∧
      (f.step choice).number = f.number ∧ (f.step choice).delivered = f.delivered := by
  -- What remains is a step of a thread whose task does not deliver.
  have hran : ∀ {task x o}, f.connection.execWhole x task = some o →
      (∀ k batch, task ≠ .give k batch) →
      (∀ k batch, task = .deliver k batch → f.connection.drainRuns k = false) →
      o.connection.drainRuns f.number = false ∧ (f.ran task o).delivered = f.delivered := by
    intro task x o ho hcall ht
    refine ⟨eq_false_of_ne_true fun hr => ?_, ?_⟩
    · have := (whole_drains_stay ho hg.known).2 hr
      rw [hstop] at this
      cases this
    · rw [delivered, ran, List.filterMap_append, no_delivery (exec_of_whole ho ht) hcall ht,
        List.append_nil, delivered]
  cases choice with
  | arrive bytes => exact ⟨hstop, rfl, rfl⟩
  | reader x =>
    simp only [step]
    split
    · exact ⟨hstop, rfl, rfl⟩
    · rename_i task rest hf
      split
      · exact ⟨hstop, rfl, rfl⟩
      · rename_i o ho
        have hread := hg.reading
        rw [hf] at hread
        obtain ⟨h1, h2⟩ := hran ho (fun k batch => (hread.stays_away k batch).2)
          fun k batch he => absurd he (hread.stays_away k batch).1
        exact ⟨h1, rfl, h2⟩
  | drain x =>
    simp only [step]
    split
    · exact ⟨hstop, rfl, rfl⟩
    · rename_i task rest hf
      split
      · exact ⟨hstop, rfl, rfl⟩
      · rename_i o ho
        have hdrain := hg.draining
        rw [hf] at hdrain
        obtain ⟨h1, h2⟩ := hran ho hdrain.not_give (by
          rintro k batch rfl
          rw [hdrain.deliver_own]
          exact hstop)
        exact ⟨h1, rfl, h2⟩
  | elsewhere task x =>
    simp only [step]
    split
    · exact ⟨hstop, rfl, rfl⟩
    · rename_i hr
      split
      · exact ⟨hstop, rfl, rfl⟩
      · rename_i o ho
        obtain ⟨h1, h2⟩ := hran ho
          (by
            rintro k batch rfl
            exact hr rfl)
          (by
            rintro k batch rfl
            simp only [Task.isReserved, Bool.or_eq_true, not_or] at hr
            exact eq_false_of_ne_true hr.2)
        exact ⟨h1, rfl, h2⟩

theorem stopped_after {c : Connection} {f : Flow} (hg : f.IsGood c)
    (hstop : f.connection.drainRuns f.number = false) (choices : List Choice) :
    (f.after choices).delivered = f.delivered := by
  unfold after
  induction choices generalizing f with
  | nil => rfl
  | cons choice choices ih =>
    obtain ⟨h1, h2, h3⟩ := stopped_step hg hstop choice
    rw [List.foldl_cons, ih (good_step hg choice) (h2.symm ▸ h1), h3]

end Flow

/-! ## The law -/

/-- What fitted and what did not are what was put to the ring. -/
theorem length_offers (ps : List Passage) :
    (ps.filterMap Passage.offer).flatten.length =
      (ps.filterMap Passage.fit).flatten.length +
        (ps.filterMap Passage.refusal).flatten.length := by
  induction ps with
  | nil => rfl
  | cons p ps ih =>
    rw [← List.singleton_append, List.filterMap_append, List.filterMap_append,
      List.filterMap_append, List.flatten_append, List.flatten_append, List.flatten_append,
      List.length_append, List.length_append, List.length_append, ih]
    rcases p with _ | ⟨bytes, waiting, _ | _⟩ | _ | _ | _ <;>
      simp [Passage.offer, Passage.fit, Passage.refusal, List.filterMap_cons] <;> omega

theorem offers_fit {ps : List Passage} (h : ps.filterMap Passage.refusal = []) :
    ps.filterMap Passage.offer = ps.filterMap Passage.fit := by
  rw [List.filterMap_eq_nil_iff] at h
  refine List.filterMap_congr ?_
  intro p hp
  have := h p hp
  rcases p with _ | ⟨bytes, waiting, _ | _⟩ | _ | _ | _ <;>
    first | rfl | simp [Passage.refusal] at this

/-- Every byte that was let in is accounted for. `c` is the connection before the attempt began to
feed the ring. -/
structure Exact (c : Connection) (f : Flow) : Prop where
  /-- The chunks that fitted, in the order in which they came, are with the consumer, in the drain's
  hand, dropped by a drain that was stopped, or in the ring. -/
  order : f.delivered ++ f.inHand ++ f.lost ++ f.connection.ring.contents = f.fitting.flatten
  /-- So the consumer has the first of them, at any time and also after a stop. -/
  ahead : f.delivered <+: f.fitting.flatten
  /-- A chunk is refused just when it does not fit. -/
  whole : ∀ bytes waiting fits, Passage.put bytes waiting fits ∈ f.passages →
    (fits = true ↔ bytes = [] ∨ waiting + bytes.length ≤ c.ring.capacity)
  /-- Every chunk let in was put to the ring, in order, but for the one in flight. -/
  arrived : f.received = f.passages.filterMap Passage.offer ++ f.inFlight
  received : f.connection.totals.received = c.totals.received + f.received.flatten.length
  dropped : f.connection.totals.dropped = c.totals.dropped + f.refused.flatten.length
  counted : f.received.flatten.length = f.delivered.length + f.inHand.length + f.lost.length +
    f.connection.buffered + (f.connection.totals.dropped - c.totals.dropped) +
    f.inFlight.flatten.length
  /-- A batch is dropped only by a drain that was stopped, and that is its last one. -/
  running : f.connection.drainRuns f.number = true → f.lost = []
  last : f.lost = [] ∨ f.inHand = []
  /-- Once nothing is on its way, all bytes were delivered if every chunk fitted. -/
  complete : f.refused = [] → f.connection.drainRuns f.number = true → f.inFlight = [] →
    f.inHand = [] → f.connection.ring.isEmpty = true → f.delivered = f.received.flatten
  /-- Once the drain was stopped, nothing more is delivered. -/
  stopped : f.connection.drainRuns f.number = false →
    ∀ more, (f.after more).delivered = f.delivered

theorem exact_of_good {c : Connection} {f : Flow} (hs : c.ring.Sound) {attempt : Nat}
    (hg : f.IsGood (Flow.begin c attempt).connection) : Exact c f := by
  obtain ⟨hcarries, hreading, hoffers, hdraining, hbatches, hknown⟩ := id hg
  have hlost : f.connection.drainRuns f.number = true → f.lost = [] := by
    intro hr
    unfold Flow.lost
    generalize f.passages.filterMap (Passage.loss f.number) = losses at hdraining
    generalize f.drain = ts at hdraining
    cases hdraining with
    | gone hno =>
      rw [hno] at hr
      cases hr
    | _ => rfl
  have horder : f.delivered ++ f.inHand ++ f.lost ++ f.connection.ring.contents =
      f.fitting.flatten := by
    have h := hcarries.order
    rw [show (Flow.begin c attempt).connection.ring.contents = [] from Ring.contents_clear hs,
      List.nil_append, hbatches] at h
    exact h.symm
  have harrived : f.received = f.passages.filterMap Passage.offer ++ f.inFlight := hoffers
  have hahead : f.delivered <+: f.fitting.flatten :=
    ⟨f.inHand ++ f.lost ++ f.connection.ring.contents, by rw [← horder]; simp⟩
  refine ⟨horder, hahead, hcarries.whole, harrived, hcarries.received, hcarries.dropped, ?_, hlost,
    ?_, ?_, fun hstop more => Flow.stopped_after hg hstop more⟩
  · have hlength := congrArg List.length horder
    have hsplit := length_offers f.passages
    have hdropped := hcarries.dropped
    rw [List.length_append, List.length_append, List.length_append,
      Ring.length_contents hcarries.sound] at hlength
    rw [harrived, List.flatten_append, List.length_append, hsplit]
    simp only [Flow.fitting] at hlength
    simp only [Flow.begin] at hdropped
    unfold buffered
    omega
  · unfold Flow.lost Flow.inHand
    generalize f.passages.filterMap (Passage.loss f.number) = losses at hdraining ⊢
    generalize f.drain = ts at hdraining ⊢
    cases hdraining with
    | gone => exact Or.inr rfl
    | _ => exact Or.inl rfl
  · intro hfit hr hflight hhand hempty
    have hcontents : f.connection.ring.contents = [] := by
      rw [Ring.contents_eq_nil hcarries.sound]
      simpa [Ring.isEmpty] using hempty
    rw [harrived, offers_fit hfit, hflight, List.append_nil]
    rw [hhand, hlost hr, hcontents, List.append_nil, List.append_nil, List.append_nil] at horder
    exact horder

/-- Inside one attempt delivery is exact. Whatever ring the attempt finds and whatever order its
read thread, its drain and all other threads take their steps in, every chunk that fits when it
arrives is delivered whole, once and in order, every other chunk is refused whole, and each byte
received is delivered, on its way, or counted as dropped. -/
theorem delivery_is_exact_for_any_schedule (origin : Ring.Origin) (ops : List Ring.Op)
    (c : Connection) (attempt : Nat) (choices : List Choice) :
    let found := { c with ring := origin.ring.after ops }
    Exact found ((Flow.begin found attempt).after choices) := by
  intro found
  have hs : found.ring.Sound := (Ring.after_queue origin.sound ops).1
  exact exact_of_good hs (Flow.good_after (Flow.good_begin hs attempt) choices)

/-- A chunk that comes while too much waits is missing whole, and the next one is not. -/
example :
    let x : Outside :=
      { subscribe := .ok 1, permitted := true, requestPermission := .ok ()
        openPort := fun _ => .ok (), packetSize := fun _ => 64
        setParameters := fun _ _ => .ok (), write := fun _ data => .ok data.length
        read := fun _ _ => none }
    let f := (Flow.begin (.new ⟨"usb", 0, 0, none, none⟩ { ringCapacity := 4 } {}) 1).after
      [.arrive [1, 2, 3], .reader x, .reader x, .reader x, .arrive [4, 5], .reader x, .reader x,
        .reader x, .drain x, .arrive [6], .reader x, .reader x, .reader x, .drain x]
    f.delivered = [1, 2, 3] ∧ f.refused = [[4, 5]] ∧ f.connection.ring.contents = [6] := by
  decide +kernel

end SerialLink.Connection
