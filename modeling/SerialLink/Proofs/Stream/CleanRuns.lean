-- The longest clean run. A run counts while it goes on, and a gap that ends it
-- writes it down. A frame id that is taken up anew ends a run as well but
-- writes nothing down, so behind a frame without a sequence number the longest
-- run may be forgotten. What is told is the longest of all the others.
import Mathlib.Data.List.Infix
import Mathlib.Order.Bounds.Basic
import SerialLink.Proofs.Stream.Tallies

namespace SerialLink.Stream

/-! ## Runs -/

/-- A frame that goes on where the one before it was, or repeats it. -/
def Verdict.isGapless : Verdict → Bool
  | .continuous | .frameChanged | .duplicate => true
  | _ => false

theorem Verdict.not_endsRun_of_gapless {v : Verdict} (h : v.isGapless = true) :
    v.endsRun = false := by
  cases v <;> simp_all [isGapless, endsRun]

/-- Frames in a row without a gap, and the frames behind them. -/
structure IsRun (frames run rest : List Verdict) : Prop where
  suffix : run ++ rest <:+ frames
  gapless : ∀ v ∈ run, v.isGapless = true

/-- The verdict that ended a run, by the frames behind it. -/
def ending? (rest : List Verdict) : Option Verdict := rest.find? Verdict.endsRun

/-- The clean frames of the runs that ended in one of these ways. -/
def runsThat (frames : List Verdict) (ended : Option Verdict → Prop) : Set Nat :=
  {n | ∃ run rest, IsRun frames run rest ∧ ended (ending? rest) ∧ run.countP Verdict.isClean = n}

/-- The longest clean run that a checker tells of: one that a gap ended, or the present one. -/
def Checker.longestRun (c : Checker) : Nat := max c.summary.maxClean c.clean

section Runs

variable {frames run rest : List Verdict} {v : Verdict}

theorem isRun_nil (frames : List Verdict) : IsRun frames [] [] :=
  ⟨List.nil_suffix, fun _ hv => absurd hv List.not_mem_nil⟩

theorem IsRun.countP_le (h : IsRun frames run rest) : run.countP Verdict.isClean ≤ frames.length :=
  calc
    run.countP Verdict.isClean ≤ run.length := List.countP_le_length
    _ ≤ (run ++ rest).length := by simp
    _ ≤ frames.length := h.suffix.length_le

/-- A run stays one when frames come behind it. -/
theorem IsRun.behind (h : IsRun frames run rest) (v : Verdict) :
    IsRun (frames ++ [v]) run (rest ++ [v]) := by
  refine ⟨?_, h.gapless⟩
  obtain ⟨before, hsplit⟩ := h.suffix
  exact ⟨before, by rw [← hsplit]; simp⟩

theorem IsRun.more (h : IsRun frames run []) (hv : v.isGapless = true) :
    IsRun (frames ++ [v]) (run ++ [v]) [] := by
  constructor
  case suffix =>
    have hrun := h.suffix
    rw [List.append_nil] at hrun ⊢
    exact List.suffix_concat_iff.mpr (Or.inr ⟨run, rfl, hrun⟩)
  case gapless =>
    intro u hu
    rcases List.mem_append.mp hu with hu | hu
    · exact h.gapless u hu
    · rw [List.mem_singleton.mp hu]
      exact hv

/-- With one more frame a run is empty, is one frame longer, or has that frame behind it. -/
theorem isRun_snoc_cases (h : IsRun (frames ++ [v]) run rest) :
    run = [] ∨
      (∃ shorter, run = shorter ++ [v] ∧ rest = [] ∧ IsRun frames shorter []) ∨
      ∃ between, rest = between ++ [v] ∧ IsRun frames run between := by
  rcases List.eq_nil_or_concat rest with rfl | ⟨between, u, rfl⟩
  · rcases List.eq_nil_or_concat run with rfl | ⟨shorter, u, rfl⟩
    · exact Or.inl rfl
    · rw [List.concat_eq_append] at h ⊢
      obtain ⟨before, hsplit⟩ := h.suffix
      rw [List.append_nil, ← List.append_assoc] at hsplit
      obtain ⟨hfront, hlast⟩ := List.append_inj' hsplit rfl
      obtain rfl : u = v := by simpa using hlast
      refine Or.inr (Or.inl ⟨shorter, rfl, rfl, ⟨before, ?_⟩, ?_⟩)
      · rw [List.append_nil, hfront]
      · exact fun w hw => h.gapless w (List.mem_append_left _ hw)
  · rw [List.concat_eq_append] at h ⊢
    obtain ⟨before, hsplit⟩ := h.suffix
    rw [← List.append_assoc, ← List.append_assoc] at hsplit
    obtain ⟨hfront, hlast⟩ := List.append_inj' hsplit rfl
    obtain rfl : u = v := by simpa using hlast
    refine Or.inr (Or.inr ⟨between, rfl, ⟨before, ?_⟩, h.gapless⟩)
    rw [← hfront, List.append_assoc]

theorem ending?_snoc (rest : List Verdict) (v : Verdict) :
    ending? (rest ++ [v]) = (ending? rest).or (if v.endsRun then some v else none) := by
  unfold ending?
  rw [List.find?_append, List.find?_singleton]

theorem ending?_unsequenced (h : ∀ u ∈ rest, u = Verdict.unsequenced) : ending? rest = none := by
  apply List.find?_eq_none.mpr
  intro u hu
  rw [h u hu]
  decide

end Runs

/-! ## One more frame -/

/-- What a verdict tells of the sequence number of a frame and of the frame id before it. -/
inductive Verdict.Fits (active sequence : UInt8) : Verdict → Prop
  | unsequenced (zero : sequence = 0) : Fits active sequence .unsequenced
  | adopted (idle : active = 0) (busy : sequence ≠ 0) : Fits active sequence .adopted
  | gapless {v : Verdict} (busy : active ≠ 0) (goes : sequence ≠ 0) (gapless : v.isGapless = true) :
    Fits active sequence v
  | loss {skipped : Nat} (busy : active ≠ 0) (goes : sequence ≠ 0) :
    Fits active sequence (.loss skipped)

theorem Verdict.fits_between (active previous sequence index : UInt8) :
    Fits active sequence (between active previous sequence index) := by
  by_cases hs : sequence = 0
  · simpa [between, hs] using Fits.unsequenced hs
  by_cases ha : active = 0
  · simpa [between, hs, ha] using Fits.adopted ha hs
  by_cases hsame : sequence = active
  · subst hsame
    rw [between_self hs]
    rcases (index - previous).toNat with _ | _ | step
    · exact .gapless hs hs rfl
    · exact .gapless hs hs rfl
    · exact .loss hs hs
  · simpa [between, hs, ha, hsame] using Fits.gapless (v := .frameChanged) ha hs rfl

/-- How the figures of a checker stand to the runs among the frames that it saw. -/
structure Runs (frames : List Verdict) (c : Checker) : Prop where
  /-- The present run is the last one, with nothing behind it but frames without a number. -/
  present : ∃ run rest, IsRun frames run rest ∧ (∀ v ∈ rest, v = .unsequenced) ∧
    (rest ≠ [] → c.active = 0) ∧ run.countP Verdict.isClean = c.clean
  present_le : ∀ n ∈ runsThat frames (· = none), n ≤ c.clean
  /-- The longest is one that a gap ended, if there is any. -/
  longest : c.summary.maxClean = 0 ∨
    c.summary.maxClean ∈ runsThat frames fun ended => ∃ skipped, ended = some (.loss skipped)
  longest_le : ∀ n ∈ runsThat frames (fun ended => ∃ skipped, ended = some (.loss skipped)),
    n ≤ c.summary.maxClean
  /-- No frame id is taken up before the first frame, and behind one without a number. -/
  idle : c.active = 0 ↔ frames = [] ∨ frames.getLast? = some .unsequenced
  taken_up : ∀ before rest, frames = before ++ .adopted :: rest →
    before = [] ∨ before.getLast? = some .unsequenced

namespace Runs

variable {frames : List Verdict} {c next : Checker} {v : Verdict} {sequence : UInt8}

theorem fresh (layout : Layout) : Runs [] (.new layout) where
  present := ⟨[], [], isRun_nil [], nofun, fun h => absurd rfl h, rfl⟩
  present_le := by
    rintro n ⟨run, rest, hrun, -, rfl⟩
    exact hrun.countP_le
  longest := Or.inl rfl
  longest_le := by
    rintro n ⟨run, rest, hrun, -, rfl⟩
    exact hrun.countP_le
  idle := ⟨fun _ => Or.inl rfl, fun _ => rfl⟩
  taken_up := by simp

/-- The run that goes on is one longer with a clean frame, and over with a gap or a new frame id. -/
theorem present_snoc (h : Runs frames c) (hv : v.Fits c.active sequence)
    (hclean : next.clean = (c.record v).clean) (hactive : next.active = sequence) :
    ∃ run rest, IsRun (frames ++ [v]) run rest ∧ (∀ u ∈ rest, u = Verdict.unsequenced) ∧
      (rest ≠ [] → next.active = 0) ∧ run.countP Verdict.isClean = next.clean := by
  obtain ⟨run, rest, hrun, hrest, hidle, hcount⟩ := h.present
  rw [hclean, hactive, Checker.record_clean]
  cases hv with
  | unsequenced hzero =>
    refine ⟨run, rest ++ [.unsequenced], hrun.behind _, ?_, fun _ => hzero, hcount⟩
    intro u hu
    rcases List.mem_append.mp hu with hu | hu
    · exact hrest u hu
    · exact List.mem_singleton.mp hu
  | adopted => exact ⟨[], [], isRun_nil _, nofun, fun h => absurd rfl h, rfl⟩
  | loss => exact ⟨[], [], isRun_nil _, nofun, fun h => absurd rfl h, rfl⟩
  | gapless hbusy _ hgapless =>
    obtain rfl : rest = [] := by
      by_contra hne
      exact hbusy (hidle hne)
    refine ⟨run ++ [v], [], hrun.more hgapless, nofun, fun h => absurd rfl h, ?_⟩
    rw [Verdict.not_endsRun_of_gapless hgapless, List.countP_append, List.countP_singleton, hcount]
    rfl

theorem present_le_snoc (h : Runs frames c) (hclean : next.clean = (c.record v).clean) :
    ∀ n ∈ runsThat (frames ++ [v]) (· = none), n ≤ next.clean := by
  rintro n ⟨run, rest, hrun, hended, rfl⟩
  rw [hclean, Checker.record_clean]
  rcases isRun_snoc_cases hrun with rfl | ⟨shorter, rfl, rfl, hshorter⟩ | ⟨between, rfl, hbehind⟩
  · exact Nat.zero_le _
  · have hle := h.present_le _ ⟨shorter, [], hshorter, rfl, rfl⟩
    have hgoes := Verdict.not_endsRun_of_gapless (hrun.gapless v (by simp))
    rw [hgoes, List.countP_append, List.countP_singleton]
    exact Nat.add_le_add_right hle _
  · rw [ending?_snoc, Option.or_eq_none_iff] at hended
    have hle := h.present_le _ ⟨run, between, hbehind, hended.1, rfl⟩
    have hgoes : v.endsRun = false := by simpa using hended.2
    rw [hgoes]
    exact Nat.le_trans hle (Nat.le_add_right _ _)

theorem longest_snoc (h : Runs frames c)
    (hmax : next.summary.maxClean = (c.record v).summary.maxClean) :
    next.summary.maxClean = 0 ∨ next.summary.maxClean ∈
      runsThat (frames ++ [v]) fun ended => ∃ skipped, ended = some (.loss skipped) := by
  have hkeep : c.summary.maxClean = 0 ∨ c.summary.maxClean ∈
      runsThat (frames ++ [v]) fun ended => ∃ skipped, ended = some (.loss skipped) := by
    apply h.longest.imp_right
    rintro ⟨run, rest, hrun, ⟨skipped, hended⟩, hcount⟩
    refine ⟨run, rest ++ [v], hrun.behind v, ⟨skipped, ?_⟩, hcount⟩
    rw [ending?_snoc, hended, Option.some_or]
  cases v with
  | loss skipped =>
    -- The gap writes down the present run if it is the longest.
    have hmax' : next.summary.maxClean = max c.summary.maxClean c.clean := hmax
    rw [hmax']
    rcases Nat.le_total c.clean c.summary.maxClean with hle | hle
    · rw [Nat.max_eq_left hle]
      exact hkeep
    · rw [Nat.max_eq_right hle]
      obtain ⟨run, rest, hrun, hrest, -, hcount⟩ := h.present
      refine Or.inr ⟨run, rest ++ [.loss skipped], hrun.behind _, ⟨skipped, ?_⟩, hcount⟩
      rw [ending?_snoc, ending?_unsequenced hrest]
      rfl
  | _ =>
    rw [hmax]
    exact hkeep

theorem longest_le_snoc (h : Runs frames c)
    (hmax : next.summary.maxClean = (c.record v).summary.maxClean) :
    ∀ n ∈ runsThat (frames ++ [v]) (fun ended => ∃ skipped, ended = some (.loss skipped)),
      n ≤ next.summary.maxClean := by
  rintro n ⟨run, rest, hrun, ⟨skipped, hended⟩, rfl⟩
  rw [hmax, Checker.record_maxClean]
  rcases isRun_snoc_cases hrun with rfl | ⟨shorter, rfl, rfl, -⟩ | ⟨between, rfl, hbehind⟩
  · exact Nat.zero_le _
  · cases hended
  · rw [ending?_snoc] at hended
    rcases hfound : ending? between with _ | u
    · have hle := h.present_le _ ⟨run, between, hbehind, hfound, rfl⟩
      rw [hfound, Option.none_or] at hended
      obtain rfl : v = .loss skipped := by
        split at hended
        · exact Option.some.inj hended
        · cases hended
      exact Nat.le_trans hle (le_max_of_le_right (Nat.le_max_left _ _))
    · rw [hfound, Option.some_or] at hended
      have hle := h.longest_le _ ⟨run, between, hbehind, ⟨skipped, hfound.trans hended⟩, rfl⟩
      exact le_max_of_le_left hle

theorem idle_snoc (hv : v.Fits c.active sequence) (hactive : next.active = sequence) :
    next.active = 0 ↔ frames ++ [v] = [] ∨ (frames ++ [v]).getLast? = some .unsequenced := by
  rw [hactive, List.getLast?_concat]
  cases hv with
  | unsequenced hzero => simp [hzero]
  | adopted _ hbusy => simp [hbusy]
  | loss _ hgoes => simp [hgoes]
  | gapless _ hgoes hgapless =>
    have hother : v ≠ .unsequenced := by
      rintro rfl
      cases hgapless
    simp [hgoes, hother]

theorem taken_up_snoc (h : Runs frames c) (hv : v.Fits c.active sequence) :
    ∀ before rest, frames ++ [v] = before ++ .adopted :: rest →
      before = [] ∨ before.getLast? = some .unsequenced := by
  intro before rest hsplit
  rcases List.eq_nil_or_concat rest with rfl | ⟨front, u, rfl⟩
  · obtain ⟨rfl, hlast⟩ := List.append_inj' hsplit rfl
    obtain rfl : v = .adopted := by simpa using hlast
    cases hv with
    | adopted hidle => exact h.idle.mp hidle
    | gapless _ _ hgapless => cases hgapless
  · rw [List.concat_eq_append, ← List.cons_append, ← List.append_assoc] at hsplit
    exact h.taken_up before front (List.append_inj' hsplit rfl).1

theorem frame (h : Runs frames c) (hv : v.Fits c.active sequence)
    (hclean : next.clean = (c.record v).clean)
    (hmax : next.summary.maxClean = (c.record v).summary.maxClean)
    (hactive : next.active = sequence) : Runs (frames ++ [v]) next where
  present := h.present_snoc hv hclean hactive
  present_le := h.present_le_snoc hclean
  longest := h.longest_snoc hmax
  longest_le := h.longest_le_snoc hmax
  idle := idle_snoc hv hactive
  taken_up := h.taken_up_snoc hv

/-! ## Any chunks -/

theorem check (h : Runs frames c) (chunk : Bytes) :
    Runs (frames ++ Verdict.onFrames [(c.check chunk).1]) (c.check chunk).2 := by
  rcases hfields : c.layout.fields? chunk with _ | ⟨sequence, index⟩
  · rw [c.check_of_no_frame hfields]
    rw [Verdict.onFrames_ignored, Verdict.onFrames, List.filter_nil, List.append_nil]
    exact h
  · obtain ⟨hverdict, hactive, -⟩ := c.check_of_frame hfields
    obtain ⟨hclean, hmax⟩ := c.check_streaks chunk
    have hfits := Verdict.fits_between c.active c.previous sequence index
    have hframe := Verdict.between_ne_ignored c.active c.previous sequence index
    rw [← hverdict] at hfits hframe
    rw [Verdict.onFrames_cons hframe]
    exact h.frame hfits hclean hmax hactive

theorem checks (h : Runs frames c) (chunks : List Bytes) :
    Runs (frames ++ Verdict.onFrames (c.checks chunks).1) (c.checks chunks).2 := by
  induction chunks generalizing frames c with
  | nil =>
    rw [Checker.checks, Verdict.onFrames, List.filter_nil, List.append_nil]
    exact h
  | cons chunk chunks ih =>
    have hrest := ih (h.check chunk)
    rw [List.append_assoc, Verdict.onFrames, Verdict.onFrames, ← List.filter_append] at hrest
    exact hrest

/-- What is told is the longest of the runs that go on or that a gap ended. -/
theorem greatest (h : Runs frames c) :
    IsGreatest (runsThat frames (· ≠ some .adopted)) c.longestRun := by
  constructor
  · unfold Checker.longestRun
    obtain ⟨run, rest, hrun, hrest, -, hcount⟩ := h.present
    have hpresent : c.clean ∈ runsThat frames (· ≠ some .adopted) :=
      ⟨run, rest, hrun, by simp [ending?_unsequenced hrest], hcount⟩
    rcases h.longest with hzero | ⟨run, rest, hrun, ⟨skipped, hended⟩, hcount⟩
    · rw [hzero, Nat.zero_max]
      exact hpresent
    · rcases Nat.le_total c.clean c.summary.maxClean with hle | hle
      · rw [Nat.max_eq_left hle]
        exact ⟨run, rest, hrun, by simp [hended], hcount⟩
      · rw [Nat.max_eq_right hle]
        exact hpresent
  · rintro n ⟨run, rest, hrun, hended, rfl⟩
    rcases hfound : ending? rest with _ | v
    · exact le_max_of_le_right (h.present_le _ ⟨run, rest, hrun, hfound, rfl⟩)
    · have hends : v.endsRun = true := List.find?_some hfound
      cases v with
      | loss skipped =>
        exact le_max_of_le_left
          (h.longest_le _ ⟨run, rest, hrun, ⟨skipped, hfound⟩, rfl⟩)
      | adopted => exact absurd hfound hended
      | _ => cases hends

end Runs

/-! ## The law -/

/-- What a new checker tells of the clean runs in some chunks. -/
structure TellsRuns (layout : Layout) (chunks : List Bytes) : Prop where
  /-- Of all runs but those that a frame id taken up anew ended, the longest is told. -/
  greatest : IsGreatest
    (runsThat (Verdict.onFrames ((Checker.new layout).checks chunks).1) (· ≠ some .adopted))
    ((Checker.new layout).checks chunks).2.longestRun
  /-- A frame id is taken up first of all, or behind a frame without a sequence number. -/
  taken_up : ∀ before rest,
    Verdict.onFrames ((Checker.new layout).checks chunks).1 = before ++ .adopted :: rest →
      before = [] ∨ before.getLast? = some .unsequenced
  /-- So the figure is within its width as long as the number of frames is. -/
  le_frames : ((Checker.new layout).checks chunks).2.longestRun ≤
    (Verdict.onFrames ((Checker.new layout).checks chunks).1).length

/-- No clean run is forgotten but one that a frame id taken up anew ended. -/
theorem the_longest_run_is_told_unless_an_id_ends_it (layout : Layout) (chunks : List Bytes) :
    TellsRuns layout chunks := by
  have hruns := (Runs.fresh layout).checks chunks
  rw [List.nil_append] at hruns
  refine ⟨hruns.greatest, hruns.taken_up, ?_⟩
  obtain ⟨run, rest, hrun, -, hcount⟩ := hruns.greatest.1
  rw [← hcount]
  exact hrun.countP_le

/-- Two clean frames, a frame without a sequence number and a frame of another id: of the run
nothing is left. -/
theorem the_longest_run_may_be_forgotten :
    let layout : Layout := { markers := (1, 2), sequenceOffset := 2, subIndexOffset := 3 }
    let seen := (Checker.new layout).checks
      [[1, 2, 5, 1], [1, 2, 5, 2], [1, 2, 5, 3], [1, 2, 0, 9], [1, 2, 6, 40]]
    ¬ ∀ run rest, IsRun (Verdict.onFrames seen.1) run rest →
      run.countP Verdict.isClean ≤ seen.2.longestRun := by
  intro layout seen hall
  have hframes : Verdict.onFrames seen.1 =
      [.adopted, .continuous, .continuous, .unsequenced, .adopted] := by decide
  have hrun : IsRun (Verdict.onFrames seen.1) [.continuous, .continuous]
      [.unsequenced, .adopted] := ⟨⟨[.adopted], hframes.symm⟩, by decide⟩
  exact absurd (hall _ _ hrun) (by decide)

end SerialLink.Stream
