-- The figures of a checker are sums over its verdicts. Those of the summary
-- start again where it is cleared, the clean run starts again at a gap or at a
-- new frame id, and the counters never do. What each figure is can be read off
-- the verdicts alone, and no sum outgrows its width while the frames are fewer
-- than 2 ^ 32.
import Mathlib.Data.List.DropRight
import Mathlib.Data.List.ReduceOption
import SerialLink.Proofs.Stream.Neighbours

namespace SerialLink.Stream

/-! ## Figures read off the verdicts -/

namespace Verdict

/-- How many sub-indices a gap skipped. -/
def skipped? : Verdict → Option Nat
  | .loss skipped => some skipped
  | _ => none

/-- A frame that makes the clean run longer. -/
def isClean : Verdict → Bool
  | .continuous | .frameChanged => true
  | _ => false

/-- A gap, or a frame id that is taken up: the clean run starts again. -/
def endsRun : Verdict → Bool
  | .loss _ | .adopted => true
  | _ => false

end Verdict

/-- The gaps among some verdicts, by what they skipped. -/
def losses (verdicts : List Verdict) : List Nat := verdicts.filterMap Verdict.skipped?

/-- The verdicts behind the last clear. -/
def sinceClear (told : List (Option Verdict)) : List Verdict :=
  (told.rtakeWhile Option.isSome).reduceOption

/-- How many clean frames there are behind the last gap or the last frame id taken up. -/
def streak (verdicts : List Verdict) : Nat :=
  (verdicts.rtakeWhile fun verdict => !verdict.endsRun).countP Verdict.isClean

/-- The streak that the verdict at `i` ended, if it is a gap behind the last clear. The streak may
be older than the clear. -/
def endedStreak? (told : List (Option Verdict)) (i : Nat) : Option Nat :=
  match told[i]? with
  | some (some (Verdict.loss _)) =>
    if none ∈ told.drop i then none else some (streak (told.take i).reduceOption)
  | _ => none

/-- The streaks that gaps ended behind the last clear. -/
def endedStreaks (told : List (Option Verdict)) : List Nat :=
  (List.range told.length).filterMap (endedStreak? told)

/-! ## One more verdict -/

section Snoc

variable (verdicts : List Verdict) (told : List (Option Verdict)) (v : Verdict)

theorem reduceOption_snoc : (told ++ [some v]).reduceOption = told.reduceOption ++ [v] :=
  List.reduceOption_append told [some v]

theorem reduceOption_clear : (told ++ [none]).reduceOption = told.reduceOption := by
  rw [List.reduceOption_append, List.reduceOption_cons_of_none, List.reduceOption_nil,
    List.append_nil]

theorem sinceClear_snoc : sinceClear (told ++ [some v]) = sinceClear told ++ [v] := by
  rw [sinceClear, List.rtakeWhile_concat_pos _ _ _ rfl, reduceOption_snoc, sinceClear]

theorem sinceClear_clear : sinceClear (told ++ [none]) = [] := by
  rw [sinceClear, List.rtakeWhile_concat_neg _ _ _ Bool.false_ne_true, List.reduceOption_nil]

theorem length_onFrames_snoc :
    (Verdict.onFrames (verdicts ++ [v])).length =
      (Verdict.onFrames verdicts).length + if v = .ignored then 0 else 1 := by
  rw [Verdict.onFrames, List.filter_append, List.length_append, Verdict.onFrames]
  congr 1
  split <;> simp [*]

theorem sum_losses_snoc : (losses (verdicts ++ [v])).sum = (losses verdicts).sum + v.missed := by
  rw [losses, List.filterMap_append, List.sum_append, losses]
  congr 1
  cases v <;> rfl

theorem largest_append (ms ns : List Nat) : largest (ms ++ ns) = max (largest ms) (largest ns) := by
  induction ms with
  | nil => exact (Nat.zero_max _).symm
  | cons m ms ih =>
    show max m (largest (ms ++ ns)) = max (max m (largest ms)) _
    rw [ih, Nat.max_assoc]

theorem largest_losses_snoc :
    largest (losses (verdicts ++ [v])) = max (largest (losses verdicts)) v.missed := by
  rw [losses, List.filterMap_append, largest_append, losses]
  congr 1
  cases v with
  | loss skipped => exact Nat.max_zero skipped
  | _ => rfl

theorem streak_snoc :
    streak (verdicts ++ [v]) =
      if v.endsRun then 0 else streak verdicts + if v.isClean then 1 else 0 := by
  rw [streak, List.rtakeWhile_concat]
  cases v <;> simp [Verdict.endsRun, Verdict.isClean, streak]

/-- A further verdict ends no streak at an earlier place, unless it is a clear that hides it. -/
theorem endedStreak?_snoc (t : Option Verdict) {i : Nat} (hi : i < told.length) :
    endedStreak? (told ++ [t]) i = if t = none then none else endedStreak? told i := by
  unfold endedStreak?
  rw [List.getElem?_append_left hi, List.drop_append_of_le_length (Nat.le_of_lt hi),
    List.take_append_of_le_length (Nat.le_of_lt hi)]
  cases t with
  | none => split <;> simp
  | some v => simp

theorem endedStreak?_length (t : Option Verdict) :
    endedStreak? (told ++ [t]) told.length =
      (t.bind Verdict.skipped?).map fun _ => streak told.reduceOption := by
  unfold endedStreak?
  rw [List.getElem?_concat_length, List.drop_left, List.take_left]
  cases t with
  | none => rfl
  | some v => cases v <;> simp [Verdict.skipped?]

/-- Only a gap ends a streak. -/
theorem endedStreaks_snoc :
    endedStreaks (told ++ [some v]) =
      endedStreaks told ++ (v.skipped?.map fun _ => streak told.reduceOption).toList := by
  rw [endedStreaks, List.length_append, List.length_singleton, List.range_succ,
    List.filterMap_append]
  congr 1
  · apply List.filterMap_congr
    intro i hi
    rw [endedStreak?_snoc told (some v) (List.mem_range.mp hi)]
    rfl
  · rw [List.filterMap_cons, endedStreak?_length]
    cases v <;> rfl

/-- Before the last clear no streak counts as ended. -/
theorem endedStreaks_clear : endedStreaks (told ++ [none]) = [] := by
  apply List.filterMap_eq_nil_iff.mpr
  intro i hi
  rw [List.mem_range, List.length_append, List.length_singleton] at hi
  rcases Nat.lt_or_ge i told.length with hlt | hge
  · rw [endedStreak?_snoc told none hlt]
    rfl
  · obtain rfl : i = told.length := by omega
    rw [endedStreak?_length]
    rfl

end Snoc

/-! ## One more chunk -/

theorem FrameTotals.record_eq (t : FrameTotals) (v : Verdict) :
    (t.record v).frames = t.frames + (if v = .ignored then 0 else 1) ∧
      (t.record v).lost = t.lost + v.missed := by
  cases v <;> simp [FrameTotals.record, Verdict.missed]

namespace Checker

variable (c : Checker) (chunk : Bytes)

/-- A chunk is counted as a frame unless it is ignored. -/
theorem length_fields? :
    (c.layout.fields? chunk).toList.length = if (c.check chunk).1 = .ignored then 0 else 1 := by
  simp only [check_ignored]
  cases c.layout.fields? chunk <;> rfl

theorem record_clean (v : Verdict) :
    (c.record v).clean = if v.endsRun then 0 else c.clean + if v.isClean then 1 else 0 := by
  cases v <;> rfl

/-- A gap offers the streak that it ends as the longest. -/
theorem record_maxClean (v : Verdict) :
    (c.record v).summary.maxClean =
      max c.summary.maxClean (largest (v.skipped?.map fun _ => c.clean).toList) := by
  cases v with
  | loss skipped => exact congrArg (max c.summary.maxClean) (Nat.max_zero c.clean).symm
  | _ => exact (Nat.max_zero c.summary.maxClean).symm

theorem record_maxClean_le (v : Verdict) :
    (c.record v).summary.maxClean ≤ max c.summary.maxClean c.clean := by
  cases v with
  | loss skipped => exact Nat.le_refl _
  | _ => exact Nat.le_max_left _ _

theorem check_streaks :
    (c.check chunk).2.clean = (c.record (c.check chunk).1).clean ∧
      (c.check chunk).2.summary.maxClean = (c.record (c.check chunk).1).summary.maxClean := by
  rcases h : c.layout.fields? chunk with _ | ⟨sequence, index⟩
  · rw [c.check_of_no_frame h]
    exact ⟨rfl, rfl⟩
  · unfold check
    rw [h]
    exact ⟨rfl, rfl⟩

end Checker

/-! ## The tally -/

/-- The figures of a watch are those of the verdicts that it told. -/
structure Tally (told : List (Option Verdict)) (w : Watch) : Prop where
  frames : w.checker.summary.totalFrames = (Verdict.onFrames (sinceClear told)).length
  loss : w.checker.summary.totalLoss = (losses (sinceClear told)).sum
  largest_loss : w.checker.summary.maxLoss = largest (losses (sinceClear told))
  longest_streak : w.checker.summary.maxClean = largest (endedStreaks told)
  streak : w.checker.clean = streak told.reduceOption
  all_frames : w.totals.frames = (Verdict.onFrames told.reduceOption).length
  all_lost : w.totals.lost = (losses told.reduceOption).sum

/-- A clear starts the summary again, and it leaves the clean run and the counters. -/
theorem Tally.clear {told : List (Option Verdict)} {w : Watch} (h : Tally told w) :
    Tally (told ++ [none]) (w.act .clear).2 := by
  constructor
  case frames | loss | largest_loss =>
    rw [sinceClear_clear]
    rfl
  case longest_streak =>
    rw [endedStreaks_clear]
    rfl
  case streak =>
    rw [reduceOption_clear]
    exact h.streak
  case all_frames =>
    rw [reduceOption_clear]
    exact h.all_frames
  case all_lost =>
    rw [reduceOption_clear]
    exact h.all_lost

theorem Tally.check {told : List (Option Verdict)} {w : Watch} (h : Tally told w) (chunk : Bytes) :
    Tally (told ++ [(w.act (.check chunk)).1]) (w.act (.check chunk)).2 := by
  obtain ⟨hloss, hlargest, hframes⟩ := w.checker.check_summary chunk
  obtain ⟨hclean, hlongest⟩ := w.checker.check_streaks chunk
  rw [Checker.record_clean] at hclean
  rw [Checker.record_maxClean] at hlongest
  obtain ⟨hall, hlost⟩ := w.totals.record_eq (w.checker.check chunk).1
  rw [Checker.length_fields?] at hframes
  show Tally (told ++ [some (w.checker.check chunk).1]) _
  constructor
  case frames =>
    rw [sinceClear_snoc, length_onFrames_snoc, ← h.frames]
    exact hframes
  case loss =>
    rw [sinceClear_snoc, sum_losses_snoc, ← h.loss]
    exact hloss
  case largest_loss =>
    rw [sinceClear_snoc, largest_losses_snoc, ← h.largest_loss]
    exact hlargest
  case longest_streak =>
    rw [endedStreaks_snoc, largest_append, ← h.longest_streak, ← h.streak]
    exact hlongest
  case streak =>
    rw [reduceOption_snoc, streak_snoc, ← h.streak]
    exact hclean
  case all_frames =>
    rw [reduceOption_snoc, length_onFrames_snoc, ← h.all_frames]
    exact hall
  case all_lost =>
    rw [reduceOption_snoc, sum_losses_snoc, ← h.all_lost]
    exact hlost

theorem Tally.act {told : List (Option Verdict)} {w : Watch} (h : Tally told w) (act : Act) :
    Tally (told ++ [(w.act act).1]) (w.act act).2 := by
  cases act with
  | check chunk => exact h.check chunk
  | clear => exact h.clear

theorem Tally.after {told : List (Option Verdict)} {w : Watch} (h : Tally told w)
    (acts : List Act) : Tally (told ++ w.told acts) (w.after acts) := by
  induction acts generalizing told w with
  | nil =>
    rw [Watch.told, List.append_nil]
    exact h
  | cons act acts ih =>
    have hrest := ih (h.act act)
    rw [List.append_assoc] at hrest
    exact hrest

/-! ## Bounds -/

/-- What the loss figures of a summary have to do with each other. -/
structure LossSummary.Coherent (s : LossSummary) : Prop where
  max_le : s.maxLoss ≤ 254
  max_le_total : s.maxLoss ≤ s.totalLoss
  total_le : s.totalLoss ≤ 254 * s.totalFrames
  zero_iff : s.maxLoss = 0 ↔ s.totalLoss = 0

theorem LossSummary.coherent_fresh : LossSummary.Coherent {} :=
  ⟨Nat.zero_le _, Nat.le_refl _, Nat.zero_le _, Iff.rfl⟩

theorem LossSummary.Coherent.check {c : Checker} (h : c.summary.Coherent) (chunk : Bytes) :
    (c.check chunk).2.summary.Coherent := by
  obtain ⟨hmax, hle, htotal, hzero⟩ := h
  obtain ⟨hloss, hlargest, hframes⟩ := c.check_summary chunk
  have hmissed := (c.check_bounds chunk).2
  have hcount := c.length_fields? chunk
  constructor
  case max_le =>
    rw [hlargest]
    split at hcount <;> omega
  case max_le_total | zero_iff =>
    rw [hlargest, hloss]
    omega
  case total_le =>
    rw [hloss, hframes]
    omega

/-- No figure is past the number of frames, or past 254 times that number. -/
structure Watch.Bounded (w : Watch) : Prop where
  coherent : w.checker.summary.Coherent
  clean : w.checker.clean ≤ w.totals.frames
  longest : w.checker.summary.maxClean ≤ w.totals.frames
  frames : w.checker.summary.totalFrames ≤ w.totals.frames
  lost : w.totals.lost ≤ 254 * w.totals.frames

theorem Watch.Bounded.clear {w : Watch} (h : w.Bounded) : (w.act .clear).2.Bounded :=
  ⟨LossSummary.coherent_fresh, h.clean, Nat.zero_le _, Nat.zero_le _, h.lost⟩

theorem Watch.Bounded.check {w : Watch} (h : w.Bounded) (chunk : Bytes) :
    (w.act (.check chunk)).2.Bounded := by
  obtain ⟨hcoherent, hclean, hlongest, hframes, hlost⟩ := h
  obtain ⟨hall, hall'⟩ := w.totals.record_eq (w.checker.check chunk).1
  obtain ⟨hrun, hmissed⟩ := w.checker.check_bounds chunk
  have hseen := (w.checker.check_summary chunk).2.2
  have hmax := (w.checker.check_streaks chunk).2
  have hmax' := w.checker.record_maxClean_le (w.checker.check chunk).1
  rw [Checker.length_fields?] at hrun hmissed hseen
  simp only [Watch.act]
  constructor
  case coherent => exact hcoherent.check chunk
  case clean =>
    rw [hall]
    exact le_trans hrun (Nat.add_le_add_right hclean _)
  case longest =>
    rw [hmax, hall]
    omega
  case frames =>
    rw [hseen, hall]
    exact Nat.add_le_add_right hframes _
  case lost =>
    rw [hall', hall, Nat.mul_add]
    exact Nat.add_le_add hlost hmissed

theorem Watch.Bounded.act {w : Watch} (h : w.Bounded) (act : Act) : (w.act act).2.Bounded := by
  cases act with
  | check chunk => exact h.check chunk
  | clear => exact h.clear

theorem Watch.Bounded.after {w : Watch} (h : w.Bounded) (acts : List Act) :
    (w.after acts).Bounded := by
  induction acts generalizing w with
  | nil => exact h
  | cons act acts ih => exact ih (h.act act)

/-- The frames counted never become fewer. -/
theorem Watch.frames_le_after (w : Watch) (acts : List Act) :
    w.totals.frames ≤ (w.after acts).totals.frames := by
  induction acts generalizing w with
  | nil => exact Nat.le_refl _
  | cons act acts ih =>
    have hstep : w.totals.frames ≤ (w.act act).2.totals.frames := by
      cases act with
      | clear => exact Nat.le_refl _
      | check chunk =>
        simp only [Watch.act]
        rw [(w.totals.record_eq _).1]
        exact Nat.le_add_right _ _
    exact le_trans hstep (ih _)

/-- Each counter is within its width. -/
structure Watch.Fits (w : Watch) : Prop where
  clean : w.checker.clean < 2 ^ 32
  max_loss : w.checker.summary.maxLoss < 2 ^ 32
  max_clean : w.checker.summary.maxClean < 2 ^ 32
  frames : w.checker.summary.totalFrames < 2 ^ 64
  loss : w.checker.summary.totalLoss < 2 ^ 64
  all_frames : w.totals.frames < 2 ^ 64
  all_lost : w.totals.lost < 2 ^ 64

theorem Watch.Bounded.fits {w : Watch} (h : w.Bounded) (hfew : w.totals.frames < 2 ^ 32) :
    w.Fits := by
  obtain ⟨⟨hmax, hmax', htotal, -⟩, hclean, hlongest, hframes, hlost⟩ := h
  constructor <;> omega

/-! ## The law -/

/-- The figures of a new checker after some acts, and those of the counters beside it. -/
structure Aggregated (layout : Layout) (acts : List Act) : Prop where
  tally : Tally ((Watch.new layout).told acts) ((Watch.new layout).after acts)
  coherent : ((Watch.new layout).after acts).checker.summary.Coherent
  /-- No counter is ever past its width, and each sum is the next value of a counter. -/
  fits : (Verdict.onFrames ((Watch.new layout).verdicts acts)).length < 2 ^ 32 →
    ∀ n, ((Watch.new layout).after (acts.take n)).Fits

/-- Every figure is what the verdicts add up to. -/
theorem the_figures_add_up (layout : Layout) (acts : List Act) : Aggregated layout acts := by
  have hfresh : Tally [] (Watch.new layout) := ⟨rfl, rfl, rfl, rfl, rfl, rfl, rfl⟩
  have hbounded : (Watch.new layout).Bounded :=
    ⟨LossSummary.coherent_fresh, Nat.zero_le _, Nat.zero_le _, Nat.zero_le _, Nat.zero_le _⟩
  have htally := hfresh.after acts
  refine ⟨htally, (hbounded.after acts).coherent, fun hfew n => ?_⟩
  apply (hbounded.after (acts.take n)).fits
  have hle := ((Watch.new layout).after (acts.take n)).frames_le_after (acts.drop n)
  rw [← Watch.after_append, List.take_append_drop, htally.all_frames] at hle
  exact Nat.lt_of_le_of_lt hle hfew

/-- The figures are cleared in a clean run of 2, and the gap of 4 that ends it counts all of it. -/
example :
    let layout : Layout := { markers := (1, 2), sequenceOffset := 2, subIndexOffset := 3 }
    let w := (Watch.new layout).after
      [.check [1, 2, 9, 0], .check [1, 2, 9, 3], .check [1, 2, 9, 4], .clear, .check [1, 2, 9, 5],
        .check [1, 2, 9, 10]]
    w.checker.summary = { totalFrames := 2, totalLoss := 4, maxLoss := 4, maxClean := 2 } ∧
      w.totals = { frames := 5, lost := 6 } := by
  decide

end SerialLink.Stream
