-- The bytes of a connection over all its attempts. Whatever moves it makes, a
-- byte that was let in is given to the consumer, lost on the way to it,
-- refused by the ring, emptied out of it, or still on its way, once.
import Mathlib.Data.Multiset.Bind
import SerialLink.Proofs.Connection.Passage

namespace SerialLink.Connection

/-! ## The ledger -/

/-- The bytes that leave for good: with a drain that was stopped, or because they do not fit. -/
def Passage.wasted : Passage → Bytes
  | .lost _ batch | .put batch _ false => batch
  | _ => []

/-- The bytes that a task holds and is about to pass on. -/
def Task.held : Task → Bytes
  | .enqueue bytes | .deliver _ bytes | .give _ bytes => bytes
  | _ => []

namespace Entry

/-- What a step does to bytes. -/
def passages (e : Entry) : List Passage :=
  e.task.passages e.before ++ e.effects.filterMap Effect.passage

/-- The bytes that a step empties out of the ring. -/
def emptied (e : Entry) : Bytes :=
  match e.task with
  | .clearRing => e.before.ring.contents
  | _ => []

def letIn (e : Entry) : List Bytes := e.passages.filterMap Passage.letIn

def batches (e : Entry) : List Bytes := e.passages.filterMap Passage.delivery

def wasted (e : Entry) : Bytes := e.passages.flatMap Passage.wasted ++ e.emptied

end Entry

/-- The chunks that were let in, in order. -/
def letIn (es : List Entry) : List Bytes := es.flatMap Entry.letIn

/-- The batches that were given to the consumer, in order. -/
def batches (es : List Entry) : List Bytes := es.flatMap Entry.batches

/-- All bytes that were let in. -/
def come (es : List Entry) : Multiset UInt8 := (letIn es).flatten

/-- All bytes that the consumer was given. -/
def served (es : List Entry) : Multiset UInt8 := (batches es).flatten

/-- All bytes that were lost, refused or emptied out of the ring. -/
def wasted (es : List Entry) : Multiset UInt8 := (es.flatMap Entry.wasted : Bytes)

/-- The bytes that pending tasks hold. -/
def held (P : Multiset Task) : Multiset UInt8 := P.bind fun t => (t.held : Multiset UInt8)

/-- The bytes on their way: in the ring, or held by a task. -/
def onWay (c : Connection) (P : Multiset Task) : Multiset UInt8 :=
  (c.ring.contents : Multiset UInt8) + held P

theorem held_cons (t : Task) (P : Multiset Task) :
    held (t ::ₘ P) = (t.held : Multiset UInt8) + held P := Multiset.cons_bind ..

theorem held_add (P Q : Multiset Task) : held (P + Q) = held P + held Q := Multiset.add_bind ..

theorem held_coe (l : List Task) : held l = (l.flatMap Task.held : Bytes) := Multiset.coe_bind ..

theorem held_singleton (t : Task) : held {t} = (t.held : Multiset UInt8) := by
  unfold held
  rw [Multiset.singleton_bind]

theorem letIn_append (es fs : List Entry) : letIn (es ++ fs) = letIn es ++ letIn fs :=
  List.flatMap_append ..

theorem come_append (es fs : List Entry) : come (es ++ fs) = come es + come fs := by
  unfold come
  rw [letIn_append, List.flatten_append, Multiset.coe_add]

theorem served_append (es fs : List Entry) : served (es ++ fs) = served es + served fs := by
  unfold served batches
  rw [List.flatMap_append, List.flatten_append, Multiset.coe_add]

theorem wasted_append (es fs : List Entry) : wasted (es ++ fs) = wasted es + wasted fs := by
  unfold wasted
  rw [List.flatMap_append, Multiset.coe_add]

/-! ## Steps that pass no bytes on -/

/-- A task with bytes that were let in. -/
def Task.isLoaded : Task → Bool
  | .check _ | .enqueue _ | .deliver .. | .give .. => true
  | _ => false

section Steps

variable {c : Connection} {x : Outside} {task t : Task} {o : Outcome} {move : Move}
  {P others : Multiset Task}

theorem held_of_empty (h : t.isLoaded = false) : t.held = [] := by
  cases t <;> first | rfl | cases h

theorem held_eq_zero (h : ∀ t ∈ P, t.isLoaded = false) : held P = 0 := by
  unfold held
  rw [Multiset.bind_congr (g := fun _ => 0)]
  · exact Multiset.bind_zero _
  · intro t ht
    rw [held_of_empty (h t ht)]
    rfl

/-- A read thread leaves a chunk to be let in, or the end of the attempt, and nothing that was let
in. -/
theorem not_loaded_of_read {number : Nat} {point : Reader.Point Nat}
    (h : c.stepRead x number point = some o) : ∀ t ∈ o.next, t.isLoaded = false := by
  obtain ⟨_, _, _, _, _, rfl⟩ := stepRead_eq h
  intro t ht
  rcases mem_afterRead ht with ⟨_, rfl⟩ | ⟨_, _, rfl⟩ | ⟨_, _, _, _, _, rfl⟩ <;> rfl

/-- No task leaves bytes that were let in, but those that bytes pass through. -/
theorem not_loaded_of_elsewhere (h : c.exec x task = some o) (ht : task.carries = false) :
    ∀ t ∈ (o.next : Multiset Task) + (o.started.flatten : Multiset Task), t.isLoaded = false := by
  refine leaves_of_exec h ?_ (fun _ => rfl) (fun _ => rfl)
    (fun _ _ _ hr => not_loaded_of_read hr) ?_
  · intro t hw
    cases t <;> first | rfl | cases hw
  · intro t hp
    cases hp with
    | again => rfl
    | _ => cases ht

/-! ## One step -/

/-- What was on its way and what the step brings is what leaves and what is on its way behind it,
where `left` is left to be done. -/
def Balanced (e : Entry) (left : Multiset Task) : Prop :=
  served [e] + wasted [e] + onWay e.after left = onWay e.before {e.task} + come [e]

/-- The books of a step by what it does to bytes. -/
theorem balanced_of_passages {e : Entry} {ps : List Passage} (hp : e.passages = ps)
    (h : ((ps.filterMap Passage.delivery).flatten : Multiset UInt8) +
        (ps.flatMap Passage.wasted ++ e.emptied : Bytes) +
          ((e.after.ring.contents : Multiset UInt8) + held P) =
      (e.before.ring.contents : Multiset UInt8) + (e.task.held : Multiset UInt8) +
        ((ps.filterMap Passage.letIn).flatten : Bytes)) : Balanced e P := by
  subst hp
  unfold Balanced onWay served wasted come batches letIn
  simp only [List.flatMap_singleton, held_singleton]
  exact h

theorem balanced_accept (n : Nat) (bytes : Bytes) :
    let o := c.stepAccept n bytes
    Balanced ⟨move, c, .accept n bytes, o.effects, o.connection⟩
      ((o.next : Multiset Task) + (o.started.flatten : Multiset Task)) := by
  intro o
  refine balanced_of_passages (passages_accept c n bytes) ?_
  rw [held_add, held_coe, held_coe]
  by_cases h : !c.dropped ∧ c.feeding = n
  · simp only [o, stepAccept, if_pos h]
    simp [Passage.delivery, Passage.wasted, Passage.letIn, Entry.emptied, Task.held,
      List.filterMap_cons]
  · simp only [o, stepAccept, if_neg h]
    simp [Entry.emptied, Task.held]

theorem balanced_enqueue (hs : c.ring.Sound) (bytes : Bytes) :
    let o := c.stepEnqueue bytes
    Balanced ⟨move, c, .enqueue bytes, o.effects, o.connection⟩
      ((o.next : Multiset Task) + (o.started.flatten : Multiset Task)) := by
  intro o
  have horder := (carries_enqueue hs bytes).order
  have hnext : o.next = [] ∧ o.started = [] := by
    simp only [o, stepEnqueue]
    split <;> exact ⟨rfl, rfl⟩
  refine balanced_of_passages (passages_enqueue c bytes) ?_
  rw [passages_enqueue] at horder
  rw [hnext.1, hnext.2, held_add, held_coe, held_coe]
  dsimp only
  cases hok : (c.ring.put bytes).1.isOk
  · rw [hok] at horder
    simp only [Passage.fit, Passage.batch, List.filterMap_cons, List.filterMap_nil,
      List.flatten_nil, List.append_nil, List.nil_append] at horder
    rw [← horder]
    simp [Passage.delivery, Passage.wasted, Passage.letIn, Entry.emptied, Task.held, add_comm,
      List.filterMap_cons]
  · rw [hok] at horder
    simp only [Passage.fit, Passage.batch, List.filterMap_cons, List.filterMap_nil,
      List.flatten_cons, List.flatten_nil, List.append_nil, List.nil_append] at horder
    rw [← horder]
    simp [Passage.delivery, Passage.wasted, Passage.letIn, Entry.emptied, Task.held,
      List.filterMap_cons]

theorem balanced_take (hs : c.ring.Sound) (drain : Nat) :
    let o := c.stepTake drain
    Balanced ⟨move, c, .take drain, o.effects, o.connection⟩
      ((o.next : Multiset Task) + (o.started.flatten : Multiset Task)) := by
  intro o
  refine balanced_of_passages (passages_take c drain) ?_
  rw [held_add, held_coe, held_coe]
  by_cases h : c.drainRuns drain = true
  · obtain ⟨_, _, hempty⟩ := Ring.contents_drain hs
    have hbatch : c.ring.drain.1 = c.ring.contents := rfl
    simp only [o, stepTake, if_pos h, hempty, hbatch]
    by_cases hb : c.ring.contents = []
    · simp [hb, Passage.delivery, Passage.wasted, Passage.letIn, Entry.emptied, Task.held,
      List.filterMap_cons]
    · simp [hb, Passage.delivery, Passage.wasted, Passage.letIn, Entry.emptied, Task.held,
      List.filterMap_cons]
  · simp only [o, stepTake, if_neg h]
    simp [Entry.emptied, Task.held]

theorem balanced_deliver {drain : Nat} {batch : Bytes} (h : c.stepDeliver drain batch = some o) :
    Balanced ⟨move, c, .deliver drain batch, o.effects, o.connection⟩
      ((o.next : Multiset Task) + (o.started.flatten : Multiset Task)) := by
  refine balanced_of_passages rfl ?_
  unfold Entry.passages Task.passages
  rw [held_add, held_coe, held_coe]
  rcases stepDeliver_eq h with ⟨hrun, rfl⟩ | ⟨hrun, rfl⟩
  · simp [hrun, Entry.emptied, Task.held]
  · simp [hrun, Passage.delivery, Passage.wasted, Passage.letIn, Entry.emptied, Task.held,
      add_comm, List.filterMap_cons]

theorem balanced_give (drain : Nat) (batch : Bytes) :
    let o := c.stepGive drain batch
    Balanced ⟨move, c, .give drain batch, o.effects, o.connection⟩
      ((o.next : Multiset Task) + (o.started.flatten : Multiset Task)) := by
  intro o
  refine balanced_of_passages rfl ?_
  unfold Entry.passages Task.passages
  rw [held_add, held_coe, held_coe]
  simp [o, stepGive, Effect.passage, Passage.delivery, Passage.wasted, Passage.letIn, Entry.emptied,
    Task.held, add_comm, List.filterMap_cons]

theorem balanced_clear (hs : c.ring.Sound) :
    Balanced ⟨move, c, .clearRing, [], { c with ring := c.ring.clear }⟩ 0 := by
  refine balanced_of_passages rfl ?_
  simp [Entry.passages, Task.passages, Entry.emptied, Task.held, held, Ring.contents_clear hs]

/-- Every step is balanced. -/
theorem balanced_of_exec (hs : c.ring.Sound) (h : c.exec x task = some o) :
    Balanced ⟨move, c, task, o.effects, o.connection⟩
      ((o.next : Multiset Task) + (o.started.flatten : Multiset Task)) := by
  by_cases ht : task.carries = true
  · cases task <;> simp only [Task.carries, Bool.false_eq_true] at ht <;>
      simp only [exec, Option.some.injEq] at h <;> try subst h
    case accept => exact balanced_accept _ _
    case enqueue => exact balanced_enqueue hs _
    case take => exact balanced_take hs _
    case deliver => exact balanced_deliver h
    case give => exact balanced_give _ _
    case clearRing => exact balanced_clear hs
  · have ht : task.carries = false := eq_false_of_ne_true ht
    have hsame := exec_sameBytes h ht
    refine balanced_of_passages (passages_of_nothing ht hsame) ?_
    have hheld : task.held = [] := by cases task <;> first | rfl | cases ht
    have hemptied : (⟨move, c, task, o.effects, o.connection⟩ : Entry).emptied = [] := by
      unfold Entry.emptied
      cases task <;> first | rfl | cases ht
    rw [hemptied, held_eq_zero (not_loaded_of_elsewhere h ht), hsame.ring, hheld]
    simp

/-- A balanced step behind balanced books. -/
theorem Balanced.snoc {es : List Entry} {e : Entry} (h : Balanced e P)
    (hes : served es + wasted es + onWay e.before (e.task ::ₘ others) = come es) :
    served (es ++ [e]) + wasted (es ++ [e]) + onWay e.after (P + others) = come (es ++ [e]) := by
  unfold Balanced at h
  unfold onWay at h hes ⊢
  rw [held_singleton] at h
  rw [held_cons] at hes
  rw [served_append, wasted_append, come_append, ← hes, held_add]
  calc served es + served [e] + (wasted es + wasted [e]) +
        (↑e.after.ring.contents + (held P + held others))
      = served es + wasted es +
          (served [e] + wasted [e] + (↑e.after.ring.contents + held P)) + held others := by
        ac_rfl
    _ = served es + wasted es +
          (↑e.before.ring.contents + ↑e.task.held + come [e]) + held others := by
        rw [h]
    _ = served es + wasted es +
          (↑e.before.ring.contents + (↑e.task.held + held others)) + come [e] := by
        ac_rfl

theorem sound_of_exec (hs : c.ring.Sound) (h : c.exec x task = some o) :
    o.connection.ring.Sound := by
  by_cases ht : task = .clearRing
  · subst ht
    simp only [exec, Option.some.injEq] at h
    subst h
    exact Ring.sound_clear hs
  · exact (exec_carries hs h ht).sound

end Steps

/-! ## Any moves -/

section Moves

variable (device : DeviceInfo) (config : ConnectionConfig) (prober : Prober)

/-- All bytes that came were given or wasted, or are on their way. -/
theorem ledger_of_bytes (moves : List Move) :
    let h := History.of (.new device config prober) moves
    h.machine.connection.ring.Sound ∧
      served h.entries + wasted h.entries + onWay h.machine.connection h.machine.pending =
        come h.entries := by
  refine History.of_induction
    (I := fun es c P => c.ring.Sound ∧ served es + wasted es + onWay c P = come es) ⟨?_, ?_⟩ ?_
    moves
  · exact (Ring.Origin.growing initialRing config.ringCapacity).sound
  · have hempty : (new device config prober).ring.contents = [] :=
      (Ring.contents_eq_nil (Ring.Origin.growing initialRing config.ringCapacity).sound).mpr rfl
    simp [served, batches, wasted, come, letIn, onWay, held, hempty]
  · intro es c others task move x o ho hsource
    -- A task that a move begins with holds no bytes.
    have hbooks : c.ring.Sound ∧
        served es + wasted es + onWay c (task ::ₘ others) = come es := by
      rcases hsource with h | ⟨h, hb⟩
      · exact h
      · have hnone : task.held = [] := by cases hb <;> rfl
        refine ⟨h.1, ?_⟩
        rw [onWay, held_cons, hnone, Multiset.coe_nil, zero_add]
        exact h.2
    exact ⟨sound_of_exec hbooks.1 ho, (balanced_of_exec hbooks.1 ho).snoc hbooks.2⟩

/-- The same from any point on. -/
theorem ledger_from (moves more : List Move) :
    let h := History.of (.new device config prober) moves
    let h' := History.of (.new device config prober) (moves ++ more)
    let later := History.later (.new device config prober) moves more
    served later + wasted later + onWay h'.machine.connection h'.machine.pending =
      onWay h.machine.connection h.machine.pending + come later := by
  intro h h' later
  have hbefore := (ledger_of_bytes device config prober moves).2
  have hafter := (ledger_of_bytes device config prober (moves ++ more)).2
  rw [History.entries_append, served_append, wasted_append, come_append, ← hbefore] at hafter
  refine add_left_cancel (a := served h.entries + wasted h.entries) ?_
  calc served h.entries + wasted h.entries +
        (served later + wasted later + onWay h'.machine.connection h'.machine.pending)
      = served h.entries + served later + (wasted h.entries + wasted later) +
          onWay h'.machine.connection h'.machine.pending := by
        ac_rfl
    _ = served h.entries + wasted h.entries + onWay h.machine.connection h.machine.pending +
          come later := hafter
    _ = _ := by
        ac_rfl

end Moves

end SerialLink.Connection
