-- How the storage of a ring grows. It grows when data that is accepted does
-- not fit it, and at no other time. Each time it at least doubles or takes all
-- that the capacity allows, and still it is never larger than it was made or
-- than twice the most bytes that the ring has held.
import SerialLink.Proofs.Ring.Queue

namespace SerialLink.Ring

/-- Most bytes that a ring holds, from now on until some operations are done. -/
def peak : Ring → List Op → Nat
  | r, [] => r.size
  | r, op :: ops => max r.size ((r.perform op).2.peak ops)

/-- A put that is accepted although the storage has not the places for it. -/
def Outgrows (r : Ring) (data : Bytes) : Prop :=
  (r.put data).1 = .ok () ∧ r.allocated < r.size + data.length

instance (r : Ring) (data : Bytes) : Decidable (r.Outgrows data) :=
  inferInstanceAs (Decidable (_ ∧ _))

theorem size_le_peak (r : Ring) (ops : List Op) : r.size ≤ r.peak ops := by
  cases ops with
  | nil => exact Nat.le_refl r.size
  | cons op ops => exact Nat.le_max_left r.size _

/-! ## A put -/

theorem allocated_advance (r : Ring) (n : Nat) : (r.advance n).allocated = r.allocated := by
  unfold advance
  split <;> rfl

theorem allocated_append (r : Ring) (data : Bytes) : (r.append data).allocated = r.allocated := by
  simp only [allocated, append, size_overwrite]

theorem allocated_grow (r : Ring) (required : Nat) :
    (r.grow required).allocated = r.grownSize required := by
  simp only [allocated, grow, size_overwrite, Array.size_replicate]

section Put

variable {r : Ring} (h : r.Sound) {data : Bytes}

include h

/-- Data that outgrows the storage is some data, and it fits below the capacity. -/
theorem Outgrows.fits (hout : r.Outgrows data) :
    data ≠ [] ∧ r.size + data.length ≤ r.capacity := by
  have hsize : r.size ≤ r.allocated := h.size_le
  obtain ⟨hok, hmore⟩ := hout
  have hd : data ≠ [] := by
    rintro rfl
    rw [List.length_nil] at hmore
    omega
  refine ⟨hd, ?_⟩
  by_contra hover
  rw [put_overflows h hd (Nat.lt_of_not_le hover)] at hok
  cases hok

/-- The storage behind a put that outgrew it, and the bytes held then. -/
theorem allocated_of_outgrows (hout : r.Outgrows data) :
    (r.put data).2.allocated = r.grownSize (r.size + data.length) ∧
      (r.put data).2.size = r.size + data.length := by
  obtain ⟨hd, hfit⟩ := hout.fits h
  have hmore : r.size + data.length > r.storage.size := hout.2
  rw [put_appends hd hfit, if_pos hmore, allocated_append, allocated_grow]
  exact ⟨rfl, rfl⟩

/-- Any other put keeps the storage, whether it is accepted or not. -/
theorem allocated_of_put (hout : ¬ r.Outgrows data) :
    (r.put data).2.allocated = r.allocated := by
  rcases eq_or_ne data [] with rfl | hd
  · rfl
  rcases Nat.lt_or_ge r.capacity (r.size + data.length) with hover | hfit
  · rw [put_overflows h hd hover]
    rfl
  · have hput := put_appends hd hfit
    have hroom : ¬ r.size + data.length > r.storage.size := by
      intro hmore
      apply hout
      rw [Outgrows, hput]
      exact ⟨rfl, hmore⟩
    rw [hput, if_neg hroom, allocated_append]

/-- The storage grows to what is needed and to twice what it was, as far as the capacity goes. -/
theorem grown_of_outgrows (hword : r.capacity ≤ wordMax) (hout : r.Outgrows data) :
    (2 * r.allocated ≤ (r.put data).2.allocated ∨ (r.put data).2.allocated = r.capacity) ∧
      r.size + data.length ≤ (r.put data).2.allocated := by
  have hfit := (hout.fits h).2
  rw [(allocated_of_outgrows h hout).1]
  refine ⟨?_, r.le_grownSize hfit⟩
  unfold allocated grownSize saturated
  omega

/-! ## One operation -/

/-- An operation keeps the storage, or it is a put that outgrew it. -/
theorem allocated_perform (op : Op) (hop : ∀ data, op = .put data → ¬ r.Outgrows data) :
    (r.perform op).2.allocated = r.allocated := by
  cases op with
  | put data => exact allocated_of_put h (hop data rfl)
  | read n => exact allocated_advance r _
  | drain out => exact allocated_advance r _
  | consume n =>
    simp only [perform, consume]
    split
    · rfl
    · exact allocated_advance r n
  | raise limit =>
    simp only [perform, raise]
    split <;> rfl
  | peek i | look n | clear => rfl

/-- What one operation makes of the storage: no less, and no more than twice what is held then. -/
theorem allocated_bounds (op : Op) :
    r.allocated ≤ (r.perform op).2.allocated ∧
      (r.perform op).2.allocated ≤ max r.allocated (2 * (r.perform op).2.size) := by
  by_cases hop : ∃ data, op = .put data ∧ r.Outgrows data
  · obtain ⟨data, rfl, hout⟩ := hop
    obtain ⟨hgrown, hsize⟩ := allocated_of_outgrows h hout
    have hroom := r.le_grownSize (hout.fits h).2
    have hmore := hout.2
    simp only [perform, hgrown, hsize]
    refine ⟨by omega, ?_⟩
    unfold grownSize saturated
    unfold allocated at hmore ⊢
    omega
  · push Not at hop
    rw [allocated_perform h op hop]
    exact ⟨Nat.le_refl _, Nat.le_max_left _ _⟩

/-! ## Any operations -/

theorem allocated_le_after (ops : List Op) : r.allocated ≤ (r.after ops).allocated := by
  induction ops generalizing r with
  | nil => exact Nat.le_refl _
  | cons op ops ih =>
    have hs := (perform_queue h op).1
    exact le_trans (allocated_bounds h op).1 (ih hs)

/-- The bound by the peak carries over a step, for what is held behind the step is below it. -/
theorem allocated_after_le (ops : List Op) :
    (r.after ops).allocated ≤ max r.allocated (2 * r.peak ops) := by
  induction ops generalizing r with
  | nil => exact Nat.le_max_left _ _
  | cons op ops ih =>
    have hs := (perform_queue h op).1
    have hrest := ih hs
    have hstep := (allocated_bounds h op).2
    have hpeak := (r.perform op).2.size_le_peak ops
    show ((r.perform op).2.after ops).allocated ≤ _
    unfold peak
    omega

end Put

/-- No operation but a raise changes the limit of a queue. -/
theorem limit_perform_le {q : BoundedQueue} {most : Nat} (hq : q.limit ≤ most) (op : Op)
    (hop : ∀ limit, op = .raise limit → limit ≤ most) : (q.perform op).2.limit ≤ most := by
  cases op with
  | raise limit =>
    simp only [BoundedQueue.perform]
    split
    · exact hq
    · exact hop limit rfl
  | put data | look n | consume n =>
    simp only [BoundedQueue.perform]
    split <;> exact hq
  | read n | drain out | peek i | clear => exact hq

/-- The capacity is a word as long as nothing larger is asked for. -/
theorem capacity_after_le {r : Ring} (h : r.Sound) {most : Nat} (hr : r.capacity ≤ most)
    {ops : List Op} (hops : ∀ limit, .raise limit ∈ ops → limit ≤ most) :
    (r.after ops).capacity ≤ most := by
  induction ops generalizing r with
  | nil => exact hr
  | cons op ops ih =>
    obtain ⟨hs, hqueue⟩ := perform_queue h op
    have hop : ∀ limit, op = .raise limit → limit ≤ most := by
      rintro limit rfl
      exact hops limit List.mem_cons_self
    have hstep := limit_perform_le (q := r.queue) hr op hop
    rw [hqueue] at hstep
    exact ih hs hstep fun limit hlimit => hops limit (List.mem_cons_of_mem op hlimit)

/-! ## The law -/

/-- What the storage of a fresh ring does over some operations, and in the next one. -/
structure GrowsByNeed (o : Origin) (ops : List Op) : Prop where
  within_capacity : (o.ring.after ops).allocated ≤ (o.ring.after ops).capacity
  within_twice_peak : (o.ring.after ops).allocated ≤ max o.ring.allocated (2 * o.ring.peak ops)
  never_less : ∀ more, (o.ring.after ops).allocated ≤ (o.ring.after (ops ++ more)).allocated
  /-- Nothing but a put that outgrew the storage changes it, so no put that failed does. -/
  kept : ∀ op, (∀ data, op = .put data → ¬ (o.ring.after ops).Outgrows data) →
    ((o.ring.after ops).perform op).2.allocated = (o.ring.after ops).allocated
  /-- A put that outgrew the storage leaves one with places for all that is held. -/
  grown : ∀ data, (o.ring.after ops).Outgrows data →
    (2 * (o.ring.after ops).allocated ≤ ((o.ring.after ops).put data).2.allocated ∨
      ((o.ring.after ops).put data).2.allocated = (o.ring.after ops).capacity) ∧
    (o.ring.after ops).size + data.length ≤ ((o.ring.after ops).put data).2.allocated

/-- The storage of a ring grows when it must, and never far beyond what was needed. -/
theorem a_storage_grows_by_need (o : Origin) (ops : List Op) (ho : o.limit ≤ wordMax)
    (hops : ∀ limit, .raise limit ∈ ops → limit ≤ wordMax) : GrowsByNeed o ops := by
  have hs := (after_queue o.sound ops).1
  have hlimit : o.ring.capacity ≤ wordMax := by
    have hfresh := congrArg BoundedQueue.limit o.queue_ring
    exact le_of_eq_of_le hfresh ho
  have hword := capacity_after_le o.sound hlimit hops
  refine ⟨hs.storage_le, allocated_after_le o.sound ops, fun more => ?_, allocated_perform hs,
    fun data hout => grown_of_outgrows hs hword hout⟩
  rw [after_append]
  exact allocated_le_after hs more

/-- A storage of 2 grows to 4, then to 8, and in the end to the capacity, which was raised. -/
theorem a_storage_of_two_grows_to_eleven :
    let ops : List Op :=
      [.put [1, 2, 3], .read 2, .put [4, 5, 6, 7], .put [8, 9, 10, 11, 12, 13], .raise 11,
        .put [8, 9, 10, 11, 12], .put [13, 14], .clear]
    (Origin.growing 2 10).limit ≤ wordMax ∧
      (∀ limit, .raise limit ∈ ops → limit ≤ wordMax) ∧ GrowsByNeed (.growing 2 10) ops ∧
      (List.range 9).map (fun n => ((growing 2 10).after (ops.take n)).allocated) =
        [2, 4, 4, 8, 8, 8, 11, 11, 11] := by
  intro ops
  have ho : (Origin.growing 2 10).limit ≤ wordMax := by decide
  have hops : ∀ limit, .raise limit ∈ ops → limit ≤ wordMax := by
    intro limit hlimit
    obtain rfl : limit = 11 := by simpa [ops] using hlimit
    decide
  exact ⟨ho, hops, a_storage_grows_by_need _ ops ho hops, by decide⟩

end SerialLink.Ring
