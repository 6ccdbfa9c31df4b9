-- The books of a ring. Data that is put in is accepted whole or refused whole,
-- and bytes that are held leave at the front, taken out or cleared away. Each
-- accepted byte has left or is held, once and in its order, and the two counts
-- of the ring are the sums of what was accepted and of what was refused.
import Mathlib.Algebra.BigOperators.Group.List.Basic
import Mathlib.Algebra.Ring.Nat
import SerialLink.Proofs.Ring.Queue

namespace SerialLink.Ring

/-! ## The entries -/

/-- What an operation does to bytes. -/
inductive Entry
  | accepted (data : Bytes)
  | refused (data : Bytes)
  /-- The oldest bytes were read, drained or consumed. -/
  | removed (bytes : Bytes)
  /-- All that was held was cleared away. -/
  | cleared (bytes : Bytes)
  deriving DecidableEq

namespace Entry

def accepted? : Entry → Option Bytes
  | .accepted data => some data
  | _ => none

def refused? : Entry → Option Bytes
  | .refused data => some data
  | _ => none

def removed? : Entry → Option Bytes
  | .removed bytes => some bytes
  | _ => none

def cleared? : Entry → Option Bytes
  | .cleared bytes => some bytes
  | _ => none

/-- Bytes that left, in whichever way. -/
def gone? : Entry → Option Bytes
  | .removed bytes | .cleared bytes => some bytes
  | _ => none

end Entry

/-- The entry of an operation, by its answer and by the bytes that it found. The answers to a
consume and a clear do not show the bytes that left, which are the first of those found. -/
def Op.booking? (found : Bytes) : Op → Answer → Option Entry
  | .put data, .outcome (.ok ()) => some (.accepted data)
  | .put data, .outcome (.error (.overflow _ _)) => some (.refused data)
  | .read _, .taken bytes => some (.removed bytes)
  | .drain out, .drained _ whole => some (.removed (whole.drop out.length))
  | .consume n, .outcome (.ok ()) => some (.removed (found.take n))
  | .clear, _ => some (.cleared found)
  | _, _ => none

/-- The entries of some operations, oldest first. -/
def ledger : Ring → List Op → List Entry
  | _, [] => []
  | r, op :: ops =>
    (op.booking? r.contents (r.perform op).1).toList ++ ledger (r.perform op).2 ops

/-- How many bytes these are together. -/
def summed (rows : List Bytes) : Nat := (rows.map List.length).sum

/-- The bytes that an operation offers to the ring. -/
def Op.offer : Op → Bytes
  | .put data => data
  | _ => []

/-- An operation that is to move no byte. -/
def Op.IsIdle : Op → Prop
  | .peek _ | .look _ | .raise _ => True
  | _ => False

section Sums

variable (rows more : List Bytes) (es : List Entry)

theorem summed_cons (bytes : Bytes) : summed (bytes :: rows) = bytes.length + summed rows := by
  rw [summed, List.map_cons, List.sum_cons, summed]

theorem summed_append : summed (rows ++ more) = summed rows + summed more := by
  rw [summed, List.map_append, List.sum_append, summed, summed]

theorem summed_eq_length : summed rows = rows.flatten.length := List.length_flatten.symm

/-- What left was removed or cleared. -/
theorem summed_gone :
    summed (es.filterMap Entry.gone?) =
      summed (es.filterMap Entry.removed?) + summed (es.filterMap Entry.cleared?) := by
  induction es with
  | nil => rfl
  | cons e es ih =>
    cases e with
    | accepted data | refused data => exact ih
    | removed bytes | cleared bytes =>
      simp only [List.filterMap_cons, Entry.gone?, Entry.removed?, Entry.cleared?, summed_cons, ih]
      omega

end Sums

/-! ## One operation -/

/-- The books between a ring and a later one. -/
structure Booked (r later : Ring) (es : List Entry) : Prop where
  written : later.written = r.written + summed (es.filterMap Entry.accepted?)
  rejected : later.rejected = r.rejected + summed (es.filterMap Entry.refused?)
  bytes : r.contents ++ (es.filterMap Entry.accepted?).flatten =
    (es.filterMap Entry.gone?).flatten ++ later.contents

/-- Nothing is booked where the counts and the bytes stay. -/
theorem Booked.nothing {r later : Ring} (hw : later.written = r.written)
    (hr : later.rejected = r.rejected) (hc : later.contents = r.contents) :
    Booked r later [] := by
  refine ⟨hw, hr, ?_⟩
  simp [hc]

theorem Booked.trans {r s t : Ring} {es fs : List Entry} (h : Booked r s es) (h' : Booked s t fs) :
    Booked r t (es ++ fs) := by
  refine ⟨?_, ?_, ?_⟩
  · rw [h'.written, h.written, List.filterMap_append, summed_append, Nat.add_assoc]
  · rw [h'.rejected, h.rejected, List.filterMap_append, summed_append, Nat.add_assoc]
  · rw [List.filterMap_append, List.filterMap_append, List.flatten_append, List.flatten_append,
      ← List.append_assoc, h.bytes, List.append_assoc, h'.bytes, List.append_assoc]

/-- The oldest bytes leave and the counts stay. -/
theorem Booked.remove {r later : Ring} {bytes : Bytes} (hw : later.written = r.written)
    (hr : later.rejected = r.rejected) (hc : r.contents = bytes ++ later.contents) :
    Booked r later [.removed bytes] := by
  refine ⟨hw, hr, ?_⟩
  simp [Entry.accepted?, Entry.gone?, hc]

theorem written_advance (r : Ring) (n : Nat) : (r.advance n).written = r.written := by
  unfold advance
  split <;> rfl

theorem rejected_advance (r : Ring) (n : Nat) : (r.advance n).rejected = r.rejected := by
  unfold advance
  split <;> rfl

/-- Forgetting bytes removes them, oldest first. -/
theorem booked_advance {r : Ring} (h : r.Sound) {n : Nat} (hn : n ≤ r.size) :
    Booked r (r.advance n) [.removed (r.contents.take n)] := by
  apply Booked.remove (written_advance r n) (rejected_advance r n)
  rw [contents_advance h hn, List.take_append_drop]

/-- Data is accepted: it goes behind all that is held, and it is counted as written. -/
theorem Booked.accept {r later : Ring} {data : Bytes} (hw : later.written = r.written + data.length)
    (hr : later.rejected = r.rejected) (hc : later.contents = r.contents ++ data) :
    Booked r later [.accepted data] := by
  refine ⟨hw, hr, ?_⟩
  simp [Entry.accepted?, Entry.gone?, hc]

/-- Data that fits is counted as written. -/
theorem counts_of_put {r : Ring} {data : Bytes} (hd : data ≠ [])
    (hfit : r.size + data.length ≤ r.capacity) :
    (r.put data).2.written = r.written + data.length ∧ (r.put data).2.rejected = r.rejected := by
  rw [put_appends hd hfit]
  dsimp only
  split <;> exact ⟨rfl, rfl⟩

theorem booked_put {r : Ring} (h : r.Sound) (data : Bytes) :
    Booked r (r.put data).2 ((Op.put data).booking? r.contents (.outcome (r.put data).1)).toList := by
  rcases eq_or_ne data [] with rfl | hd
  · exact Booked.accept rfl rfl (List.append_nil r.contents).symm
  rcases Nat.lt_or_ge r.capacity (r.size + data.length) with hover | hfit
  · rw [put_overflows h hd hover]
    refine ⟨rfl, rfl, ?_⟩
    exact List.append_nil r.contents
  · obtain ⟨hok, -, hqueue⟩ := put_fits h hd hfit
    obtain ⟨hwritten, hrejected⟩ := counts_of_put hd hfit
    have hcontents : (r.put data).2.contents = r.contents ++ data :=
      (BoundedQueue.mk.inj hqueue).1
    rw [hok]
    exact Booked.accept hwritten hrejected hcontents

/-- Every operation is booked as its answer says. -/
theorem booked_perform {r : Ring} (h : r.Sound) (op : Op) :
    Booked r (r.perform op).2 (op.booking? r.contents (r.perform op).1).toList := by
  cases op with
  | put data => exact booked_put h data
  | read n =>
    have hn : min n r.size ≤ r.size := Nat.min_le_right n r.size
    have htaken := oldest_eq_take h hn
    simp only [perform, read, Op.booking?, htaken]
    exact booked_advance h hn
  | drain out =>
    have hall : r.contents.take r.size = r.contents := by
      rw [← length_contents h, List.take_length]
    have hbooked := booked_advance h (Nat.le_refl r.size)
    rw [hall] at hbooked
    simp only [perform, drainOnto, drain, Op.booking?, List.drop_left]
    exact hbooked
  | peek i => exact Booked.nothing rfl rfl rfl
  | look n =>
    simp only [perform, look]
    split <;> exact Booked.nothing rfl rfl rfl
  | consume n =>
    simp only [perform, consume]
    split
    · exact Booked.nothing rfl rfl rfl
    · exact booked_advance h (by omega)
  | raise limit =>
    simp only [perform, raise]
    split <;> exact Booked.nothing rfl rfl rfl
  | clear =>
    refine ⟨rfl, rfl, ?_⟩
    simp [perform, Op.booking?, Entry.accepted?, Entry.gone?, contents_clear h]

/-- What is offered is accepted or refused. -/
theorem offered_perform (r : Ring) (found : Bytes) (op : Op) :
    summed ((op.booking? found (r.perform op).1).toList.filterMap Entry.accepted?) +
      summed ((op.booking? found (r.perform op).1).toList.filterMap Entry.refused?) =
        op.offer.length := by
  cases op with
  | put data =>
    simp only [perform, put]
    split
    · exact Nat.add_zero data.length
    split
    · exact Nat.zero_add data.length
    · exact Nat.add_zero data.length
  | consume n =>
    simp only [perform, consume]
    split
    · rfl
    · rfl
  | read n | drain out | peek i | look n | raise limit | clear => rfl

/-- An idle operation makes no entry, and it changes neither count and no byte. -/
theorem idle_perform {r : Ring} (h : r.Sound) {op : Op} (hop : op.IsIdle) :
    op.booking? r.contents (r.perform op).1 = none ∧ Booked r (r.perform op).2 [] := by
  have hentry : op.booking? r.contents (r.perform op).1 = none := by
    cases op with
    | peek i | look n | raise limit => rfl
    | put data | read n | drain out | consume n | clear => cases hop
  have hbooked := booked_perform h op
  rw [hentry] at hbooked
  exact ⟨hentry, hbooked⟩

/-! ## Any operations -/

theorem ledger_append (r : Ring) (ops more : List Op) :
    r.ledger (ops ++ more) = r.ledger ops ++ (r.after ops).ledger more := by
  induction ops generalizing r with
  | nil => rfl
  | cons op ops ih =>
    rw [List.cons_append, ledger, ih, ledger, List.append_assoc]
    rfl

theorem booked_after {r : Ring} (h : r.Sound) (ops : List Op) :
    Booked r (r.after ops) (r.ledger ops) := by
  induction ops generalizing r with
  | nil => exact Booked.nothing rfl rfl rfl
  | cons op ops ih =>
    have hsound := (perform_queue h op).1
    exact (booked_perform h op).trans (ih hsound)

theorem offered_ledger (r : Ring) (ops : List Op) :
    summed ((r.ledger ops).filterMap Entry.accepted?) +
      summed ((r.ledger ops).filterMap Entry.refused?) = summed (ops.map Op.offer) := by
  induction ops generalizing r with
  | nil => rfl
  | cons op ops ih =>
    have hop := offered_perform r r.contents op
    have hops := ih (r.perform op).2
    rw [ledger, List.filterMap_append, List.filterMap_append, summed_append, summed_append,
      List.map_cons, summed_cons, ← hop, ← hops]
    omega

/-! ## The law -/

/-- The books of a fresh ring after some operations. -/
structure Accounted (o : Origin) (ops : List Op) : Prop where
  written : (o.ring.after ops).written = summed ((o.ring.ledger ops).filterMap Entry.accepted?)
  rejected : (o.ring.after ops).rejected = summed ((o.ring.ledger ops).filterMap Entry.refused?)
  /-- What was accepted is what has left, in this order, and then what is held. -/
  bytes : ((o.ring.ledger ops).filterMap Entry.accepted?).flatten =
    ((o.ring.ledger ops).filterMap Entry.gone?).flatten ++ (o.ring.after ops).contents
  balance : (o.ring.after ops).written =
    summed ((o.ring.ledger ops).filterMap Entry.removed?) +
      summed ((o.ring.ledger ops).filterMap Entry.cleared?) + (o.ring.after ops).size
  /-- So no count is past what was offered, nor past 64 bits while the offers are not. -/
  offered : (o.ring.after ops).written + (o.ring.after ops).rejected = summed (ops.map Op.offer)
  /-- A look, or a higher limit, adds to none of these. -/
  idle : ∀ op : Op, op.IsIdle →
    o.ring.ledger (ops ++ [op]) = o.ring.ledger ops ∧
      (o.ring.after (ops ++ [op])).written = (o.ring.after ops).written ∧
      (o.ring.after (ops ++ [op])).rejected = (o.ring.after ops).rejected ∧
      (o.ring.after (ops ++ [op])).contents = (o.ring.after ops).contents

theorem Origin.starts_empty (o : Origin) :
    o.ring.written = 0 ∧ o.ring.rejected = 0 ∧ o.ring.contents = [] := by
  have hcontents : o.ring.contents = [] := congrArg BoundedQueue.bytes o.queue_ring
  cases o <;> exact ⟨rfl, rfl, hcontents⟩

/-- Every byte is in the books of a ring, and it is there once. -/
theorem every_byte_is_accounted_for_once (o : Origin) (ops : List Op) : Accounted o ops := by
  obtain ⟨hwritten, hrejected, hcontents⟩ := o.starts_empty
  have hbooked := booked_after o.sound ops
  have hs := (after_queue o.sound ops).1
  have hw := hbooked.written
  have hr := hbooked.rejected
  have hbytes := hbooked.bytes
  rw [hwritten, Nat.zero_add] at hw
  rw [hrejected, Nat.zero_add] at hr
  rw [hcontents, List.nil_append] at hbytes
  refine ⟨hw, hr, hbytes, ?_, ?_, fun op hop => ?_⟩
  · have hlength := congrArg List.length hbytes
    rw [List.length_append, length_contents hs, ← summed_eq_length, ← summed_eq_length,
      summed_gone] at hlength
    rw [hw, hlength]
  · rw [hw, hr]
    exact offered_ledger o.ring ops
  · obtain ⟨hentry, hidle⟩ := idle_perform hs hop
    rw [ledger_append, after_append, ledger, hentry]
    refine ⟨List.append_nil _, hidle.written, hidle.rejected, ?_⟩
    have hsame := hidle.bytes
    rw [List.filterMap_nil, List.filterMap_nil, List.flatten_nil, List.append_nil,
      List.nil_append] at hsame
    exact hsame.symm

/-- A chunk is refused, a byte is read, two more are dropped, and the rest is cleared away. -/
example :
    (growing 2 4).ledger [.put [1, 2, 3], .put [4, 5], .read 1, .peek 0, .consume 1, .clear] =
      [.accepted [1, 2, 3], .refused [4, 5], .removed [1], .removed [2], .cleared [3]] := by
  decide

end SerialLink.Ring
