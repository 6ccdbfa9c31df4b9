-- The ring behaves as a bounded queue. The queue is a list of bytes and a
-- limit; it knows no storage, no head and no growing, and still gives every
-- answer that the ring gives, after any operations.
import SerialLink.Proofs.Ring.Contents

namespace SerialLink

/-! ## The queue -/

/-- The bytes of a queue, oldest first, and the most that it may hold. -/
structure BoundedQueue where
  bytes : Bytes := []
  limit : Nat
  deriving DecidableEq

namespace Ring

/-- An operation on a ring, or on a queue. -/
inductive Op
  | put (data : Bytes)
  | read (n : Nat)
  | drain (out : Bytes)
  | peek (i : Nat)
  | look (n : Nat)
  | consume (n : Nat)
  | raise (limit : Nat)
  | clear

/-- What an operation answers. -/
inductive Answer
  | outcome (result : Except RingError Unit)
  | taken (bytes : Bytes)
  /-- The number of bytes taken, and all that the caller's buffer holds now. -/
  | drained (count : Nat) (out : Bytes)
  | byte (b : Option UInt8)
  | looked (result : Except RingError Bytes)
  deriving DecidableEq

/-- What can be read off without an operation. -/
structure Gauges where
  held : Nat
  empty : Bool
  free : Nat
  limit : Nat

/-- One operation on a ring. -/
def perform (r : Ring) : Op → Answer × Ring
  | .put data => (.outcome (r.put data).1, (r.put data).2)
  | .read n => (.taken (r.read n).1, (r.read n).2)
  | .drain out => (.drained (r.drainOnto out).1 (r.drainOnto out).2.1, (r.drainOnto out).2.2)
  | .peek i => (.byte (r.peek i), r)
  | .look n => (.looked (r.look n), r)
  | .consume n => (.outcome (r.consume n).1, (r.consume n).2)
  | .raise limit => (.outcome (r.raise limit).1, (r.raise limit).2)
  | .clear => (.outcome (.ok ()), r.clear)

def gauges (r : Ring) : Gauges := ⟨r.size, r.isEmpty, r.available, r.capacity⟩

/-- The ring after some operations. -/
def after (r : Ring) (ops : List Op) : Ring := ops.foldl (fun r op => (r.perform op).2) r

/-- What each of some operations answers, and what the gauges show behind it. -/
def answers : Ring → List Op → List (Answer × Gauges)
  | _, [] => []
  | r, op :: ops =>
    let (answer, r) := r.perform op
    (answer, r.gauges) :: answers r ops

end Ring

namespace BoundedQueue

open SerialLink.Ring (Op Answer Gauges)

/-- One operation on a queue. Data is put whole, if it fits, and taken from the front. -/
def perform (q : BoundedQueue) : Op → Answer × BoundedQueue
  | .put data =>
    if data = [] ∨ q.bytes.length + data.length ≤ q.limit then
      (.outcome (.ok ()), { q with bytes := q.bytes ++ data })
    else (.outcome (.error (.overflow data.length (q.limit - q.bytes.length))), q)
  | .read n =>
    let count := min n q.bytes.length
    (.taken (q.bytes.take count), { q with bytes := q.bytes.drop count })
  | .drain out => (.drained q.bytes.length (out ++ q.bytes), { q with bytes := [] })
  | .peek i => (.byte q.bytes[i]?, q)
  | .look n =>
    if n ≤ q.bytes.length then (.looked (.ok (q.bytes.take n)), q)
    else (.looked (.error (.underflow n q.bytes.length)), q)
  | .consume n =>
    if n ≤ q.bytes.length then (.outcome (.ok ()), { q with bytes := q.bytes.drop n })
    else (.outcome (.error (.underflow n q.bytes.length)), q)
  | .raise limit =>
    if limit < q.limit then (.outcome (.error (.cannotShrink q.limit limit)), q)
    else (.outcome (.ok ()), { q with limit })
  | .clear => (.outcome (.ok ()), { q with bytes := [] })

def gauges (q : BoundedQueue) : Gauges :=
  ⟨q.bytes.length, decide (q.bytes.length = 0), q.limit - q.bytes.length, q.limit⟩

def after (q : BoundedQueue) (ops : List Op) : BoundedQueue :=
  ops.foldl (fun q op => (q.perform op).2) q

def answers : BoundedQueue → List Op → List (Answer × Gauges)
  | _, [] => []
  | q, op :: ops =>
    let (answer, q) := q.perform op
    (answer, q.gauges) :: answers q ops

end BoundedQueue

namespace Ring

/-! ## One operation -/

/-- The queue that a ring stands for. -/
def queue (r : Ring) : BoundedQueue := ⟨r.contents, r.capacity⟩

theorem gauges_queue {r : Ring} (h : r.Sound) : r.queue.gauges = r.gauges := by
  simp only [BoundedQueue.gauges, gauges, queue, length_contents h, isEmpty, available]
  rfl

/-- Data that fits is appended, once the storage has the places. -/
theorem put_appends {r : Ring} {data : Bytes} (hd : data ≠ [])
    (hfit : r.size + data.length ≤ r.capacity) :
    r.put data = (.ok (),
      (if r.size + data.length > r.storage.size then r.grow (r.size + data.length) else r).append
        data) := by
  simp only [put, List.isEmpty_iff, hd, if_false]
  rw [if_neg (show ¬ data.length > r.available by unfold available; omega)]

/-- A put of data that fits: it stands behind what is held. -/
theorem put_fits {r : Ring} (h : r.Sound) {data : Bytes} (hd : data ≠ [])
    (hfit : r.size + data.length ≤ r.capacity) :
    (r.put data).1 = .ok () ∧ (r.put data).2.Sound ∧
      (r.put data).2.queue = ⟨r.contents ++ data, r.capacity⟩ := by
  rw [put_appends hd hfit]
  refine ⟨rfl, ?_⟩
  split
  · have hg := sound_grow (r := r) (Nat.le_add_right _ _) hfit
    have hroom : (r.grow (r.size + data.length)).size + data.length ≤
        (r.grow (r.size + data.length)).storage.size := by
      simpa [grow] using r.le_grownSize hfit
    refine ⟨sound_append hg hroom, ?_⟩
    simp only [queue]
    rw [contents_append hg hd hroom, contents_grow h (Nat.le_add_right _ _) hfit]
    rfl
  · have hroom : r.size + data.length ≤ r.storage.size := by omega
    refine ⟨sound_append h hroom, ?_⟩
    simp only [queue]
    rw [contents_append h hd hroom]
    rfl

/-- A put of data that does not fit: only the count of refused bytes changes. -/
theorem put_overflows {r : Ring} (h : r.Sound) {data : Bytes} (hd : data ≠ [])
    (hover : r.capacity < r.size + data.length) :
    r.put data = (.error (.overflow data.length r.available),
      { r with rejected := r.rejected + data.length }) := by
  have hsize := h.size_le_capacity
  simp only [put, List.isEmpty_iff, hd, if_false]
  rw [if_pos (show data.length > r.available by unfold available; omega)]

theorem sound_of_eq {r s : Ring} (h : r.Sound) (hst : s.storage = r.storage)
    (hc : r.capacity ≤ s.capacity) (hh : s.head = r.head) (hs : s.size = r.size) : s.Sound := by
  refine ⟨?_, ?_, ?_⟩
  · rw [hst, hs]; exact h.size_le
  · rw [hst]; exact le_trans h.storage_le hc
  · rw [hst, hh]; exact h.head_le

theorem sound_clear {r : Ring} (h : r.Sound) : r.clear.Sound :=
  ⟨Nat.zero_le _, h.storage_le, Or.inl rfl⟩

theorem contents_clear {r : Ring} (h : r.Sound) : r.clear.contents = [] :=
  (contents_eq_nil (sound_clear h)).mpr rfl

/-- One operation on a ring is that operation on its queue, and leaves the ring sound. -/
theorem perform_queue {r : Ring} (h : r.Sound) (op : Op) :
    (r.perform op).2.Sound ∧
      r.queue.perform op = ((r.perform op).1, (r.perform op).2.queue) := by
  have hlen := length_contents h
  cases op with
  | put data =>
    simp only [perform, BoundedQueue.perform, queue, hlen]
    rcases eq_or_ne data [] with rfl | hd
    · exact ⟨h, by simp [put]⟩
    · rcases Nat.lt_or_ge r.capacity (r.size + data.length) with hover | hfit
      · rw [put_overflows h hd hover, if_neg (by simp only [hd, false_or]; omega)]
        exact ⟨sound_of_eq h rfl (Nat.le_refl _) rfl rfl, rfl⟩
      · obtain ⟨h1, h2, h3⟩ := put_fits h hd hfit
        rw [if_pos (Or.inr hfit), h1, ← h3]
        exact ⟨h2, rfl⟩
  | read n =>
    have hle : min n r.size ≤ r.size := Nat.min_le_right _ _
    simp only [perform, BoundedQueue.perform, read, queue, hlen]
    rw [oldest_eq_take h hle, contents_advance h hle, capacity_advance]
    exact ⟨sound_advance h hle, rfl⟩
  | drain out =>
    have hle := Nat.le_refl r.size
    simp only [perform, BoundedQueue.perform, drainOnto, drain, queue, hlen]
    rw [contents_advance h hle, capacity_advance, List.drop_of_length_le (Nat.le_of_eq hlen)]
    exact ⟨sound_advance h hle, rfl⟩
  | peek i =>
    refine ⟨h, ?_⟩
    simp only [perform, BoundedQueue.perform, queue, peek_eq h]
  | look n =>
    simp only [perform, BoundedQueue.perform, look, queue, hlen]
    rcases Nat.lt_or_ge r.size n with hn | hn
    · rw [if_neg (show ¬ n ≤ r.size by omega), if_pos hn]
      exact ⟨h, rfl⟩
    · rw [if_pos (show n ≤ r.size from hn), if_neg (show ¬ n > r.size by omega),
        oldest_eq_take h hn]
      exact ⟨h, rfl⟩
  | consume n =>
    simp only [perform, BoundedQueue.perform, consume, queue, hlen]
    rcases Nat.lt_or_ge r.size n with hn | hn
    · rw [if_neg (show ¬ n ≤ r.size by omega), if_pos hn]
      exact ⟨h, rfl⟩
    · rw [if_pos (show n ≤ r.size from hn), if_neg (show ¬ n > r.size by omega)]
      dsimp only
      rw [contents_advance h hn, capacity_advance]
      exact ⟨sound_advance h hn, rfl⟩
  | raise limit =>
    rcases Nat.lt_or_ge limit r.capacity with hlow | hhigh
    · simp only [perform, BoundedQueue.perform, raise, queue, hlow, if_true]
      exact ⟨h, trivial⟩
    · simp only [perform, BoundedQueue.perform, raise, queue, Nat.not_lt.mpr hhigh, if_false]
      exact ⟨sound_of_eq h rfl hhigh rfl rfl, rfl⟩
  | clear =>
    simp only [perform, BoundedQueue.perform, queue]
    rw [contents_clear h]
    exact ⟨sound_clear h, rfl⟩

/-! ## Any operations -/

theorem after_append (r : Ring) (ops more : List Op) :
    r.after (ops ++ more) = (r.after ops).after more := List.foldl_append

theorem after_queue {r : Ring} (h : r.Sound) (ops : List Op) :
    (r.after ops).Sound ∧ (r.after ops).queue = r.queue.after ops := by
  induction ops generalizing r with
  | nil => exact ⟨h, rfl⟩
  | cons op ops ih =>
    obtain ⟨hs, hq⟩ := perform_queue h op
    have := ih hs
    simp only [after, BoundedQueue.after, List.foldl_cons, hq] at this ⊢
    exact this

theorem answers_queue {r : Ring} (h : r.Sound) (ops : List Op) :
    r.answers ops = r.queue.answers ops := by
  induction ops generalizing r with
  | nil => rfl
  | cons op ops ih =>
    obtain ⟨hs, hq⟩ := perform_queue h op
    simp only [answers, BoundedQueue.answers, hq]
    rw [gauges_queue hs, ih hs]

/-! ## Fresh rings -/

/-- The ways to make a ring. -/
inductive Origin
  | fixed (capacity : Nat)
  | standard
  | growing (initial capacity : Nat)

def Origin.ring : Origin → Ring
  | .fixed capacity => Ring.fixed capacity
  | .standard => Ring.standard
  | .growing initial capacity => Ring.growing initial capacity

def Origin.limit : Origin → Nat
  | .fixed capacity => capacity
  | .standard => defaultCapacity
  | .growing _ capacity => capacity

theorem Origin.sound (o : Origin) : o.ring.Sound := by
  cases o with
  | fixed capacity => exact ⟨Nat.zero_le _, by simp [ring, Ring.fixed], Or.inl rfl⟩
  | standard =>
    exact ⟨Nat.zero_le _, by simp [ring, Ring.standard, Ring.fixed], Or.inl rfl⟩
  | growing initial capacity =>
    refine ⟨Nat.zero_le _, ?_, Or.inl rfl⟩
    rw [ring, Ring.growing, Array.size_replicate]
    exact Nat.min_le_right _ _

theorem Origin.queue_ring (o : Origin) : o.ring.queue = { limit := o.limit } := by
  have hnil : o.ring.contents = [] := by
    rw [contents_eq_nil o.sound]
    cases o <;> rfl
  simp only [queue, hnil]
  cases o <;> rfl

/-- A fresh ring, however it was made, answers every run of operations as the empty queue with its
capacity as the limit does, and holds in the end what that queue holds. So what a ring answers
depends on its capacity alone: a ring that grows is not told from one that owns all its places. -/
theorem a_ring_is_a_bounded_queue (o : Origin) (ops : List Op) :
    o.ring.answers ops = BoundedQueue.answers { limit := o.limit } ops ∧
      o.ring.gauges = BoundedQueue.gauges { limit := o.limit } ∧
      (o.ring.after ops).contents = (BoundedQueue.after { limit := o.limit } ops).bytes ∧
      (o.ring.after ops).gauges = (BoundedQueue.after { limit := o.limit } ops).gauges ∧
      ∀ initial, (growing initial o.limit).answers ops = (fixed o.limit).answers ops := by
  obtain ⟨hs, hq⟩ := after_queue o.sound ops
  rw [o.queue_ring] at hq
  refine ⟨?_, ?_, ?_, ?_, ?_⟩
  · rw [answers_queue o.sound, o.queue_ring]
  · rw [← gauges_queue o.sound, o.queue_ring]
  · rw [← hq]
    rfl
  · rw [← gauges_queue hs, hq]
  · intro initial
    have hg := answers_queue (Origin.growing initial o.limit).sound ops
    have hf := answers_queue (Origin.fixed o.limit).sound ops
    rw [Origin.queue_ring] at hg hf
    exact hg.trans hf.symm

/-- Wrapped around the end of its storage, the ring still gives the bytes in order. -/
example : ((growing 2 4).answers
    [.put [1, 2, 3], .read 2, .put [4, 5, 6], .put [7], .drain [0]]).map (·.1) =
    [.outcome (.ok ()), .taken [1, 2], .outcome (.ok ()), .outcome (.error (.overflow 1 0)),
      .drained 4 [0, 3, 4, 5, 6]] := by
  decide

end Ring

end SerialLink
