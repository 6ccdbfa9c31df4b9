-- What the checker makes of a device that numbers its frames. The device counts
-- on without an end and the checker is shown the number modulo 256, so a gap is
-- told as it is while fewer than 255 frames are missing in it. A wider gap is
-- told as less than it is, never as more.
import Mathlib.Algebra.Ring.Nat
import Mathlib.Order.Interval.Finset.Nat
import SerialLink.Stream.Checker

namespace SerialLink.Stream

/-! ## The verdicts on a stream -/

namespace Checker

/-- The verdicts on some chunks, and the checker behind them. -/
def checks (c : Checker) : List Bytes → List Verdict × Checker
  | [] => ([], c)
  | chunk :: chunks =>
    let (verdict, next) := c.check chunk
    let (verdicts, last) := next.checks chunks
    (verdict :: verdicts, last)

end Checker

namespace Verdict

/-- The verdict on a frame of the same id whose number is `step` higher. -/
def ofStep : Nat → Verdict
  | 0 => .duplicate
  | 1 => .continuous
  | step => .loss (step - 1)

/-- The frames that are missing, by this verdict. -/
def missed : Verdict → Nat
  | .loss skipped => skipped
  | _ => 0

/-- The verdicts on the chunks that are frames. -/
def onFrames (verdicts : List Verdict) : List Verdict := verdicts.filter (· ≠ .ignored)

theorem onFrames_ignored (verdicts : List Verdict) :
    onFrames (.ignored :: verdicts) = onFrames verdicts := rfl

theorem onFrames_cons {v : Verdict} (hv : v ≠ .ignored) (verdicts : List Verdict) :
    onFrames (v :: verdicts) = v :: onFrames verdicts :=
  List.filter_cons_of_pos (decide_eq_true hv)

theorem missed_ofStep (step : Nat) : (ofStep step).missed = step - 1 := by
  match step with
  | 0 | 1 => rfl
  | step + 2 => rfl

theorem ofStep_ne_ignored (step : Nat) : ofStep step ≠ .ignored := by
  match step with
  | 0 | 1 => nofun
  | step + 2 => nofun

theorem between_self {s : UInt8} (hs : s ≠ 0) (previous index : UInt8) :
    between s previous s index = ofStep (index - previous).toNat := by
  unfold between
  rw [if_neg hs, if_neg hs, if_neg (not_not_intro rfl)]
  match (index - previous).toNat with
  | 0 | 1 => rfl
  | step + 2 => rfl

theorem between_ne_ignored (active previous sequence index : UInt8) :
    between active previous sequence index ≠ .ignored := by
  by_cases hz : sequence = 0
  · simp [between, hz]
  by_cases ha : active = 0
  · simp [between, hz, ha]
  by_cases he : sequence = active
  · subst he
    rw [between_self hz]
    exact ofStep_ne_ignored _
  · simp [between, hz, ha, he]

theorem missed_between_le (active previous sequence index : UInt8) :
    (between active previous sequence index).missed ≤ 254 := by
  by_cases hz : sequence = 0
  · simp [between, hz, missed]
  by_cases ha : active = 0
  · simp [between, hz, ha, missed]
  by_cases he : sequence = active
  · subst he
    have hlt := (index - previous).toNat_lt
    rw [between_self hz, missed_ofStep]
    omega
  · simp [between, hz, ha, he, missed]

end Verdict

/-! ## The figures are those of the verdicts -/

namespace Checker

variable (c : Checker) {chunk : Bytes} {chunks : List Bytes} {sequence index : UInt8}

theorem checks_cons (chunk : Bytes) (chunks : List Bytes) :
    c.checks (chunk :: chunks) =
      ((c.check chunk).1 :: ((c.check chunk).2.checks chunks).1,
        ((c.check chunk).2.checks chunks).2) := rfl

theorem check_of_no_frame (h : c.layout.fields? chunk = none) : c.check chunk = (.ignored, c) := by
  unfold check
  rw [h]

theorem check_of_frame (h : c.layout.fields? chunk = some (sequence, index)) :
    (c.check chunk).1 = .between c.active c.previous sequence index ∧
      (c.check chunk).2.active = sequence ∧ (c.check chunk).2.previous = index := by
  unfold check
  rw [h]
  exact ⟨rfl, rfl, rfl⟩

theorem check_ignored : (c.check chunk).1 = .ignored ↔ c.layout.fields? chunk = none := by
  rcases h : c.layout.fields? chunk with _ | ⟨sequence, index⟩
  · simp [c.check_of_no_frame h]
  · rw [(c.check_of_frame h).1]
    simp [Verdict.between_ne_ignored]

theorem record_layout (v : Verdict) : (c.record v).layout = c.layout := by
  cases v <;> rfl

theorem check_layout : (c.check chunk).2.layout = c.layout := by
  unfold check
  split
  · rfl
  · exact record_layout c _

theorem record_summary (v : Verdict) :
    (c.record v).summary.totalLoss = c.summary.totalLoss + v.missed ∧
      (c.record v).summary.maxLoss = max c.summary.maxLoss v.missed ∧
        (c.record v).summary.totalFrames = c.summary.totalFrames ∧
          (c.record v).clean ≤ c.clean + 1 := by
  cases v <;> simp [record, LossSummary.recordLoss, Verdict.missed]

/-- What one chunk adds to the figures is in its verdict. -/
theorem check_summary (chunk : Bytes) :
    (c.check chunk).2.summary.totalLoss = c.summary.totalLoss + (c.check chunk).1.missed ∧
      (c.check chunk).2.summary.maxLoss = max c.summary.maxLoss (c.check chunk).1.missed ∧
        (c.check chunk).2.summary.totalFrames =
          c.summary.totalFrames + (c.layout.fields? chunk).toList.length := by
  rcases h : c.layout.fields? chunk with _ | ⟨sequence, index⟩
  · simp [c.check_of_no_frame h, Verdict.missed]
  · unfold check
    rw [h]
    obtain ⟨hloss, hmax, hframes, -⟩ :=
      c.record_summary (.between c.active c.previous sequence index)
    exact ⟨hloss, hmax, congrArg (· + 1) hframes⟩

/-- One frame makes the clean run one longer at most, and the loss higher by 254 at most. -/
theorem check_bounds (chunk : Bytes) :
    (c.check chunk).2.clean ≤ c.clean + (c.layout.fields? chunk).toList.length ∧
      (c.check chunk).1.missed ≤ 254 * (c.layout.fields? chunk).toList.length := by
  rcases h : c.layout.fields? chunk with _ | ⟨sequence, index⟩
  · simp [c.check_of_no_frame h, Verdict.missed]
  · rw [(c.check_of_frame h).1]
    refine ⟨?_, Verdict.missed_between_le ..⟩
    unfold check
    rw [h]
    exact (c.record_summary (.between c.active c.previous sequence index)).2.2.2

end Checker

/-- The largest of some numbers, zero of none. -/
def largest (ns : List Nat) : Nat := ns.foldr max 0

namespace Checker

theorem length_frames_cons (layout : Layout) (chunk : Bytes) (chunks : List Bytes) :
    ((chunk :: chunks).filterMap layout.fields?).length =
      (layout.fields? chunk).toList.length + (chunks.filterMap layout.fields?).length := by
  rw [List.filterMap_cons]
  cases layout.fields? chunk with
  | none => exact (Nat.zero_add _).symm
  | some fields => exact Nat.add_comm _ 1

/-- The figures behind some chunks are those before and what the verdicts say. -/
theorem checks_summary (c : Checker) (chunks : List Bytes) :
    (c.checks chunks).2.summary.totalLoss =
        c.summary.totalLoss + ((c.checks chunks).1.map Verdict.missed).sum ∧
      (c.checks chunks).2.summary.maxLoss =
        max c.summary.maxLoss (largest ((c.checks chunks).1.map Verdict.missed)) ∧
      (c.checks chunks).2.summary.totalFrames =
        c.summary.totalFrames + (chunks.filterMap c.layout.fields?).length := by
  induction chunks generalizing c with
  | nil => simp [checks, largest]
  | cons chunk chunks ih =>
    obtain ⟨hloss, hmax, hframes⟩ := ih (c.check chunk).2
    obtain ⟨hloss', hmax', hframes'⟩ := c.check_summary chunk
    rw [checks_cons]
    refine ⟨?_, ?_, ?_⟩
    · rw [hloss, hloss', List.map_cons, List.sum_cons, Nat.add_assoc]
    · rw [hmax, hmax', List.map_cons, Nat.max_assoc]
      rfl
    · rw [hframes, hframes', check_layout, length_frames_cons, Nat.add_assoc]

/-- No counter outgrows the frames. -/
theorem checks_bounds (c : Checker) (chunks : List Bytes) :
    (c.checks chunks).2.clean ≤ c.clean + (chunks.filterMap c.layout.fields?).length ∧
      (c.checks chunks).2.summary.totalLoss ≤
        c.summary.totalLoss + 254 * (chunks.filterMap c.layout.fields?).length := by
  induction chunks generalizing c with
  | nil => simp [checks]
  | cons chunk chunks ih =>
    obtain ⟨hclean, hloss⟩ := ih (c.check chunk).2
    obtain ⟨hclean', hmissed⟩ := c.check_bounds chunk
    have hloss' := (c.check_summary chunk).1
    rw [check_layout] at hclean hloss
    rw [checks_cons, length_frames_cons]
    dsimp only
    omega

/-- There is one verdict for each chunk, and the chunks that are no frame are ignored. -/
theorem checks_ignored (c : Checker) (chunks : List Bytes) :
    (c.checks chunks).1.map (fun v => decide (v = .ignored)) =
      chunks.map fun chunk => decide (c.layout.fields? chunk = none) := by
  induction chunks generalizing c with
  | nil => rfl
  | cons chunk chunks ih =>
    rw [checks_cons, List.map_cons, List.map_cons, ih, check_layout]
    simp only [check_ignored]

end Checker

/-! ## Numbered frames -/

/-- What the checker is shown of the frame with this number. -/
def shown (s : UInt8) (start number : Nat) : UInt8 × UInt8 := (s, UInt8.ofNat (start + number))

/-- Chunks that bring the frames with these numbers, in the order in which they were sent and any
of them again, with anything in between that is no frame. -/
structure Delivery (layout : Layout) (s : UInt8) (start : Nat) (numbers : List Nat)
    (chunks : List Bytes) : Prop where
  sequenced : s ≠ 0
  brought : chunks.filterMap layout.fields? = numbers.map (shown s start)
  ordered : numbers.Pairwise (· ≤ ·)
  few : numbers.length < 2 ^ 32

/-- How much each number is above the one before it. -/
def steps : Nat → List Nat → List Nat
  | _, [] => []
  | number, next :: rest => (next - number) :: steps next rest

/-- How many frames are missing in front of each frame but the first. -/
def gaps (first : Nat) (rest : List Nat) : List Nat := (steps first rest).map (· - 1)

/-- The frames between the first and the last delivered that were not delivered. -/
def undelivered (first : Nat) (rest : List Nat) : Finset Nat :=
  (Finset.Icc first (rest.getLastD first)).filter (· ∉ first :: rest)

section Numbers

variable {first next : Nat} {rest : List Nat}

theorem le_last (h : (first :: rest).Pairwise (· ≤ ·)) : first ≤ rest.getLastD first := by
  rcases List.eq_nil_or_concat rest with rfl | ⟨front, last, rfl⟩
  · exact Nat.le_refl _
  · rw [List.concat_eq_append] at h ⊢
    rw [List.getLastD_concat]
    exact (List.pairwise_cons.mp h).1 last (by simp)

theorem undelivered_cons (h : (first :: next :: rest).Pairwise (· ≤ ·)) :
    undelivered first (next :: rest) = Finset.Ioo first next ∪ undelivered next rest := by
  obtain ⟨hfirst, hrest⟩ := List.pairwise_cons.mp h
  have hstep : first ≤ next := hfirst next (List.mem_cons_self ..)
  have hlast : next ≤ rest.getLastD next := le_last hrest
  have hnext := (List.pairwise_cons.mp hrest).1
  ext n
  simp only [undelivered, List.getLastD_cons, Finset.mem_union, Finset.mem_filter, Finset.mem_Icc,
    Finset.mem_Ioo, List.mem_cons, not_or]
  constructor
  · rintro ⟨⟨hlo, hhi⟩, hne, hne', hout⟩
    by_cases hn : n < next
    · exact Or.inl ⟨by omega, hn⟩
    · exact Or.inr ⟨⟨by omega, hhi⟩, hne', hout⟩
  · rintro (⟨hlo, hhi⟩ | ⟨⟨hlo, hhi⟩, hne, hout⟩)
    · refine ⟨⟨by omega, by omega⟩, by omega, by omega, fun hmem => ?_⟩
      have := hnext n hmem
      omega
    · exact ⟨⟨by omega, hhi⟩, by omega, hne, hout⟩

/-- The frames that were not delivered are those of the gaps. -/
theorem card_undelivered (h : (first :: rest).Pairwise (· ≤ ·)) :
    (undelivered first rest).card = (gaps first rest).sum := by
  induction rest generalizing first with
  | nil => simp [undelivered, gaps, steps]
  | cons next rest ih =>
    have hapart : Disjoint (Finset.Ioo first next) (undelivered next rest) := by
      rw [Finset.disjoint_left]
      intro n hn hout
      simp only [undelivered, Finset.mem_filter, Finset.mem_Icc, Finset.mem_Ioo] at hn hout
      omega
    rw [undelivered_cons h, Finset.card_union_of_disjoint hapart, Nat.card_Ioo,
      ih (List.pairwise_cons.mp h).2]
    rfl

end Numbers

/-! ## A gap modulo 256 -/

/-- A step is seen modulo 256, and less is missing in what is seen. -/
theorem seen_le (step : Nat) : step % 256 - 1 ≤ step - 1 :=
  Nat.sub_le_sub_right (Nat.mod_le ..) 1

theorem seen_eq_iff (step : Nat) : step % 256 - 1 = step - 1 ↔ step - 1 ≤ 254 := by omega

theorem sum_seen_le (ds : List Nat) :
    (ds.map (· % 256 - 1)).sum ≤ (ds.map (· - 1)).sum := by
  induction ds with
  | nil => exact Nat.le_refl _
  | cons d ds ih =>
    rw [List.map_cons, List.map_cons, List.sum_cons, List.sum_cons]
    exact Nat.add_le_add (seen_le d) ih

/-- The sums agree just when each step is seen as it is, for none is seen as more. -/
theorem sum_seen_eq_iff (ds : List Nat) :
    (ds.map (· % 256 - 1)).sum = (ds.map (· - 1)).sum ↔ ∀ d ∈ ds, d - 1 ≤ 254 := by
  induction ds with
  | nil => simp
  | cons d ds ih =>
    have hd := seen_le d
    have hrest := sum_seen_le ds
    rw [List.map_cons, List.map_cons, List.sum_cons, List.sum_cons, List.forall_mem_cons, ← ih,
      ← seen_eq_iff]
    omega

theorem map_seen {α : Type} (f : Nat → α) {ds : List Nat} (h : ∀ d ∈ ds, d - 1 ≤ 254) :
    ds.map (fun d => f (d % 256)) = ds.map f := by
  refine List.map_congr_left fun d hd => ?_
  have := h d hd
  rw [Nat.mod_eq_of_lt (by omega)]

/-- The difference of two sub-indices is that of the numbers, modulo 256. -/
theorem shown_sub {i j : Nat} (start : Nat) (h : i ≤ j) :
    (UInt8.ofNat (start + j) - UInt8.ofNat (start + i)).toNat = (j - i) % 256 := by
  rw [UInt8.toNat_sub, UInt8.toNat_ofNat', UInt8.toNat_ofNat']
  omega

/-! ## The verdicts on a delivery -/

namespace Checker

variable {c : Checker} {s : UInt8} {start : Nat}

/-- The chunks up to a frame, and the checker behind the frame. -/
theorem onFrames_checks_cons (c : Checker) (chunk : Bytes) (chunks : List Bytes) :
    Verdict.onFrames (c.checks (chunk :: chunks)).1 =
      if (c.layout.fields? chunk).isSome then
        (c.check chunk).1 :: Verdict.onFrames ((c.check chunk).2.checks chunks).1
      else Verdict.onFrames (c.checks chunks).1 := by
  rw [checks_cons]
  rcases h : c.layout.fields? chunk with _ | fields
  · rw [c.check_of_no_frame h]
    rfl
  · exact Verdict.onFrames_cons (by simp [check_ignored, h]) _

/-- Behind frame `number` the checker tells the further steps, each modulo 256. -/
theorem told_behind (hs : s ≠ 0) {chunks : List Bytes} {number : Nat} {rest : List Nat}
    (ha : c.active = s) (hp : c.previous = UInt8.ofNat (start + number))
    (hbrought : chunks.filterMap c.layout.fields? = rest.map (shown s start))
    (hord : (number :: rest).Pairwise (· ≤ ·)) :
    Verdict.onFrames (c.checks chunks).1 =
      (steps number rest).map fun d => .ofStep (d % 256) := by
  induction chunks generalizing c number rest with
  | nil =>
    rw [List.filterMap_nil] at hbrought
    rw [List.map_eq_nil_iff.mp hbrought.symm]
    rfl
  | cons chunk chunks ih =>
    rw [onFrames_checks_cons]
    rcases h : c.layout.fields? chunk with _ | fields
    · rw [List.filterMap_cons_none h] at hbrought
      exact ih ha hp hbrought hord
    · rw [List.filterMap_cons_some h] at hbrought
      rcases rest with _ | ⟨next, rest⟩
      · cases hbrought
      · obtain ⟨hfields, hrest⟩ := List.cons.inj hbrought
        obtain ⟨hord', hord''⟩ := List.pairwise_cons.mp hord
        obtain ⟨hverdict, hactive, hprevious⟩ := c.check_of_frame (h.trans (congrArg some hfields))
        rw [if_pos Option.isSome_some, hverdict, ha, hp, Verdict.between_self hs,
          shown_sub start (hord' next (List.mem_cons_self ..)),
          ih hactive hprevious (by rw [check_layout]; exact hrest) hord'']
        rfl

/-- A new checker takes up the first frame. -/
theorem told_from_new (layout : Layout) (hs : s ≠ 0) {chunks : List Bytes} {first : Nat}
    {rest : List Nat}
    (hbrought : chunks.filterMap layout.fields? = (first :: rest).map (shown s start))
    (hord : (first :: rest).Pairwise (· ≤ ·)) :
    Verdict.onFrames ((new layout).checks chunks).1 =
      .adopted :: (steps first rest).map fun d => .ofStep (d % 256) := by
  induction chunks with
  | nil => cases hbrought
  | cons chunk chunks ih =>
    rw [onFrames_checks_cons]
    rcases h : layout.fields? chunk with _ | fields
    · rw [List.filterMap_cons_none h] at hbrought
      rw [show (new layout).layout = layout from rfl, h]
      exact ih hbrought
    · rw [List.filterMap_cons_some h] at hbrought
      obtain ⟨hfields, hrest⟩ := List.cons.inj hbrought
      obtain ⟨hverdict, hactive, hprevious⟩ :=
        (new layout).check_of_frame (h.trans (congrArg some hfields))
      have hadopted : Verdict.between (new layout).active (new layout).previous s
          (UInt8.ofNat (start + first)) = .adopted := by
        simp [Verdict.between, new, hs]
      rw [show (new layout).layout = layout from rfl, h, if_pos Option.isSome_some, hverdict,
        hadopted, told_behind hs hactive hprevious (by rw [check_layout]; exact hrest) hord]

end Checker

/-! ## The law -/

/-- The true verdicts on a stream: the first frame is taken up, and each further one is judged by
the frames that are missing in front of it. -/
def trueVerdicts (first : Nat) (rest : List Nat) : List Verdict :=
  .adopted :: (steps first rest).map .ofStep

/-- What a new checker makes of some chunks that bring the frames `first :: rest`. -/
structure Counted (layout : Layout) (first : Nat) (rest : List Nat) (chunks : List Bytes) :
    Prop where
  never_over : ((Checker.new layout).checks chunks).2.summary.totalLoss ≤
    (undelivered first rest).card
  exact_iff : ((Checker.new layout).checks chunks).2.summary.totalLoss =
    (undelivered first rest).card ↔ ∀ gap ∈ gaps first rest, gap ≤ 254
  largest_gap : (∀ gap ∈ gaps first rest, gap ≤ 254) →
    ((Checker.new layout).checks chunks).2.summary.maxLoss = largest (gaps first rest)
  true_verdicts : (∀ gap ∈ gaps first rest, gap ≤ 254) →
    Verdict.onFrames ((Checker.new layout).checks chunks).1 = trueVerdicts first rest
  /-- The chunks that are no frame are ignored, each in its place. -/
  ignored : ((Checker.new layout).checks chunks).1.map (fun v => decide (v = .ignored)) =
    chunks.map fun chunk => decide (layout.fields? chunk = none)
  frames : ((Checker.new layout).checks chunks).2.summary.totalFrames = rest.length + 1
  /-- No counter is ever past its width. -/
  fits : ∀ n, ((Checker.new layout).checks (chunks.take n)).2.clean < 2 ^ 32 ∧
    ((Checker.new layout).checks (chunks.take n)).2.summary.totalFrames < 2 ^ 64 ∧
    ((Checker.new layout).checks (chunks.take n)).2.summary.totalLoss < 2 ^ 64

/-- Nothing is missing by a chunk that is no frame. -/
theorem missed_onFrames (verdicts : List Verdict) :
    ((Verdict.onFrames verdicts).map Verdict.missed).sum = (verdicts.map Verdict.missed).sum ∧
      largest ((Verdict.onFrames verdicts).map Verdict.missed) =
        largest (verdicts.map Verdict.missed) := by
  induction verdicts with
  | nil => exact ⟨rfl, rfl⟩
  | cons v verdicts ih =>
    obtain ⟨hsum, hlargest⟩ := ih
    by_cases hv : v = .ignored
    · subst hv
      rw [Verdict.onFrames_ignored, hsum, hlargest]
      exact ⟨(Nat.zero_add _).symm, (Nat.zero_max _).symm⟩
    · rw [Verdict.onFrames_cons hv]
      exact ⟨congrArg (v.missed + ·) hsum, congrArg (Nat.max v.missed) hlargest⟩

theorem missed_seen (ds : List Nat) :
    (ds.map fun d => Verdict.ofStep (d % 256)).map Verdict.missed = ds.map (· % 256 - 1) := by
  rw [List.map_map]
  exact List.map_congr_left fun d _ => Verdict.missed_ofStep (d % 256)

section Delivery

variable {layout : Layout} {s : UInt8} {start first : Nat} {rest : List Nat} {chunks : List Bytes}

theorem Delivery.told (h : Delivery layout s start (first :: rest) chunks) :
    Verdict.onFrames ((Checker.new layout).checks chunks).1 =
      .adopted :: (steps first rest).map fun d => .ofStep (d % 256) :=
  Checker.told_from_new layout h.sequenced h.brought h.ordered

theorem Delivery.total (h : Delivery layout s start (first :: rest) chunks) :
    ((Checker.new layout).checks chunks).2.summary.totalLoss =
      ((steps first rest).map (· % 256 - 1)).sum := by
  rw [(Checker.checks_summary _ chunks).1, ← (missed_onFrames _).1, h.told, List.map_cons,
    List.sum_cons, missed_seen]
  exact (Nat.zero_add _).trans (Nat.zero_add _)

theorem Delivery.max (h : Delivery layout s start (first :: rest) chunks) :
    ((Checker.new layout).checks chunks).2.summary.maxLoss =
      largest ((steps first rest).map (· % 256 - 1)) := by
  rw [(Checker.checks_summary _ chunks).2.1, ← (missed_onFrames _).2, h.told, List.map_cons,
    missed_seen]
  exact (Nat.zero_max _).trans (Nat.zero_max _)

theorem Delivery.seen (h : Delivery layout s start (first :: rest) chunks) (n : Nat) :
    ((chunks.take n).filterMap layout.fields?).length < 2 ^ 32 := by
  have hle := ((List.take_sublist n chunks).filterMap layout.fields?).length_le
  rw [h.brought, List.length_map] at hle
  exact Nat.lt_of_le_of_lt hle h.few

theorem gaps_le_iff (first : Nat) (rest : List Nat) :
    (∀ gap ∈ gaps first rest, gap ≤ 254) ↔ ∀ d ∈ steps first rest, d - 1 ≤ 254 := by
  unfold gaps
  exact List.forall_mem_map

/-- Missing frames are counted exactly while no gap is wider than 254 of them, and never too
many. -/
theorem gaps_are_counted_exactly_up_to_254 (h : Delivery layout s start (first :: rest) chunks) :
    Counted layout first rest chunks := by
  have hcard := card_undelivered h.ordered
  refine ⟨?_, ?_, fun hgaps => ?_, fun hgaps => ?_, ?_, ?_, fun n => ?_⟩
  · rw [h.total, hcard]
    exact sum_seen_le _
  · rw [h.total, hcard, gaps_le_iff]
    exact sum_seen_eq_iff _
  · rw [h.max]
    exact congrArg largest (map_seen (· - 1) ((gaps_le_iff first rest).mp hgaps))
  · rw [h.told]
    exact congrArg _ (map_seen Verdict.ofStep ((gaps_le_iff first rest).mp hgaps))
  · exact Checker.checks_ignored _ chunks
  · rw [(Checker.checks_summary _ chunks).2.2]
    show 0 + (chunks.filterMap layout.fields?).length = rest.length + 1
    rw [h.brought, List.length_map, List.length_cons, Nat.zero_add]
  · have hseen := h.seen n
    obtain ⟨hclean, hloss⟩ := Checker.checks_bounds (Checker.new layout) (chunks.take n)
    have hframes := (Checker.checks_summary (Checker.new layout) (chunks.take n)).2.2
    simp only [Checker.new] at hclean hloss hframes hseen ⊢
    omega

end Delivery

/-- Frames 3, 3, 4, 7 and 300 of a device that began at sub-index 250, with a tail in between. -/
theorem a_gap_of_292_is_counted_as_36 :
    let layout : Layout := { markers := (1, 2), sequenceOffset := 2, subIndexOffset := 3 }
    let chunks : List Bytes :=
      [[1, 2, 9, 253], [1, 2, 9, 253], [1, 2, 9, 254], [1, 7], [1, 2, 9, 1], [1, 2, 9, 38]]
    Delivery layout 9 250 [3, 3, 4, 7, 300] chunks ∧ Counted layout 3 [3, 4, 7, 300] chunks ∧
      ((Checker.new layout).checks chunks).1 =
        [.adopted, .duplicate, .continuous, .ignored, .loss 2, .loss 36] := by
  intro layout chunks
  have h : Delivery layout 9 250 [3, 3, 4, 7, 300] chunks :=
    ⟨by decide, by decide, by decide, by decide⟩
  exact ⟨h, gaps_are_counted_exactly_up_to_254 h, by decide⟩

end SerialLink.Stream
