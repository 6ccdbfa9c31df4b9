-- What a verdict depends on. A chunk that is no frame changes nothing, so it
-- may as well not come, and a frame is judged by itself and by the frame before
-- it, whatever came earlier and wherever the figures were cleared.
import SerialLink.Proofs.Stream.Gaps

namespace SerialLink.Stream

/-! ## A checker at work -/

/-- What is done with a checker. -/
inductive Act
  | check (chunk : Bytes)
  /-- The figures are started again. -/
  | clear
  deriving DecidableEq

/-- A checker, and the counters that go up with its verdicts. -/
structure Watch where
  checker : Checker
  totals : FrameTotals := {}
  deriving DecidableEq

namespace Watch

def new (layout : Layout) : Watch := { checker := .new layout }

/-- One act, and the verdict on a chunk that was checked. -/
def act (w : Watch) : Act → Option Verdict × Watch
  | .check chunk =>
    let (verdict, checker) := w.checker.check chunk
    (some verdict, { checker, totals := w.totals.record verdict })
  | .clear => (none, { w with checker := w.checker.clearSummary })

def after (w : Watch) (acts : List Act) : Watch := acts.foldl (fun w act => (w.act act).2) w

/-- What each of some acts tells: a verdict, or nothing where the figures were cleared. -/
def told : Watch → List Act → List (Option Verdict)
  | _, [] => []
  | w, act :: acts => (w.act act).1 :: told (w.act act).2 acts

/-- The verdicts of some acts. -/
def verdicts (w : Watch) (acts : List Act) : List Verdict := (w.told acts).reduceOption

/-- The last frame that was seen, or two zeros. -/
def last (w : Watch) : UInt8 × UInt8 := (w.checker.active, w.checker.previous)

end Watch

/-! ## Frames by their length and markers -/

/-- A chunk with room for every field and with the markers in front. -/
def Layout.Recognises (l : Layout) (chunk : Bytes) : Prop :=
  l.minLength ≤ chunk.length ∧ chunk.take 2 = [l.markers.1, l.markers.2]

instance (l : Layout) (chunk : Bytes) : Decidable (l.Recognises chunk) :=
  inferInstanceAs (Decidable (_ ∧ _))

/-- The bytes at the two offsets. -/
def Layout.frameOf (l : Layout) (chunk : Bytes) : UInt8 × UInt8 :=
  (chunk.getD l.sequenceOffset 0, chunk.getD l.subIndexOffset 0)

/-- The frame that an act brings to a checker. -/
def Act.frame? (l : Layout) : Act → Option (UInt8 × UInt8)
  | .check chunk => if l.Recognises chunk then some (l.frameOf chunk) else none
  | .clear => none

/-- The frames that some acts bring. -/
def framesOf (l : Layout) (acts : List Act) : List (UInt8 × UInt8) := acts.filterMap (Act.frame? l)

/-- A clear, or a check of a frame. -/
def Act.matters (l : Layout) : Act → Bool
  | .check chunk => decide (l.Recognises chunk)
  | .clear => true

def Act.isCheck : Act → Bool
  | .check _ => true
  | .clear => false

/-- A chunk that is checked is shorter than the largest word. -/
def Act.IsShort : Act → Prop
  | .check chunk => chunk.length < wordMax
  | .clear => True

instance : (act : Act) → Decidable act.IsShort
  | .check chunk => inferInstanceAs (Decidable (chunk.length < wordMax))
  | .clear => inferInstanceAs (Decidable True)

/-- How far a sub-index is behind another, counted upward modulo 256. -/
def rise (previous index : UInt8) : Nat := (index.toNat + 256 - previous.toNat) % 256

/-- The verdict on a frame, by the frame before it. -/
def judged (before frame : UInt8 × UInt8) : Verdict :=
  if frame.1 = 0 then .unsequenced
  else if before.1 = 0 then .adopted
  else if frame.1 ≠ before.1 then .frameChanged
  else .ofStep (rise before.2 frame.2)

theorem take_two_eq_iff (chunk : Bytes) (a b : UInt8) :
    chunk.take 2 = [a, b] ↔ chunk[0]? = some a ∧ chunk[1]? = some b := by
  match chunk with
  | [] => simp
  | [x] => simp
  | x :: y :: rest => simp

/-- The least length is no less than what the four places need, also where it is cut off. -/
theorem minLength_le_iff (l : Layout) {chunk : Bytes} (hc : chunk.length < wordMax) :
    l.minLength ≤ chunk.length ↔
      l.sequenceOffset < chunk.length ∧ l.subIndexOffset < chunk.length ∧ 1 < chunk.length := by
  unfold Layout.minLength saturated
  omega

theorem fields?_eq_some_iff (l : Layout) (chunk : Bytes) (frame : UInt8 × UInt8) :
    l.fields? chunk = some frame ↔
      (chunk[0]? = some l.markers.1 ∧ chunk[1]? = some l.markers.2) ∧
        chunk[l.sequenceOffset]? = some frame.1 ∧ chunk[l.subIndexOffset]? = some frame.2 := by
  unfold Layout.fields?
  split
  · rename_i hmarked
    rcases chunk[l.sequenceOffset]? with _ | s <;> rcases chunk[l.subIndexOffset]? with _ | x <;>
      simp [hmarked, Prod.ext_iff]
  · simp [*]

/-- The checker finds the fields of just those chunks. -/
theorem fields?_eq (l : Layout) {chunk : Bytes} (hc : chunk.length < wordMax) :
    l.fields? chunk = if l.Recognises chunk then some (l.frameOf chunk) else none := by
  split
  · rename_i hframe
    obtain ⟨hlong, hmarked⟩ := hframe
    obtain ⟨hs, hi, -⟩ := (minLength_le_iff l hc).mp hlong
    apply (fields?_eq_some_iff l chunk _).mpr
    refine ⟨(take_two_eq_iff chunk _ _).mp hmarked, ?_, ?_⟩
    · simp [Layout.frameOf, hs]
    · simp [Layout.frameOf, hi]
  · rename_i hframe
    by_contra hfields
    obtain ⟨frame, hfields⟩ := Option.ne_none_iff_exists'.mp hfields
    obtain ⟨hmarked, hs, hi⟩ := (fields?_eq_some_iff l chunk frame).mp hfields
    apply hframe
    refine ⟨(minLength_le_iff l hc).mpr ?_, (take_two_eq_iff chunk _ _).mpr hmarked⟩
    exact ⟨(List.getElem?_eq_some_iff.mp hs).1, (List.getElem?_eq_some_iff.mp hi).1,
      (List.getElem?_eq_some_iff.mp hmarked.2).1⟩

/-! ## One act -/

theorem toNat_sub_eq_rise (previous index : UInt8) :
    (index - previous).toNat = rise previous index := by
  have hprevious := previous.toNat_lt
  rw [UInt8.toNat_sub, rise]
  omega

/-- The checker judges by the frame that it saw last. -/
theorem between_eq_judged (before frame : UInt8 × UInt8) :
    Verdict.between before.1 before.2 frame.1 frame.2 = judged before frame := by
  unfold judged
  split
  · simp [Verdict.between, *]
  split
  · simp [Verdict.between, *]
  split
  · simp [Verdict.between, *]
  · rename_i hsequence _ hsame
    rw [← not_not.mp hsame, Verdict.between_self hsequence, toNat_sub_eq_rise]

theorem judged_ne_ignored (before frame : UInt8 × UInt8) : judged before frame ≠ .ignored := by
  rw [← between_eq_judged]
  apply Verdict.between_ne_ignored

namespace Watch

variable {w : Watch}

theorem layout_act (w : Watch) (act : Act) :
    (w.act act).2.checker.layout = w.checker.layout := by
  cases act with
  | check chunk => exact w.checker.check_layout
  | clear => rfl

theorem act_of_no_frame {chunk : Bytes} (h : w.checker.layout.fields? chunk = none) :
    w.act (.check chunk) = (some .ignored, w) := by
  simp only [act, w.checker.check_of_no_frame h]
  rfl

theorem act_of_frame {chunk : Bytes} {frame : UInt8 × UInt8}
    (h : w.checker.layout.fields? chunk = some frame) :
    (w.act (.check chunk)).1 = some (judged w.last frame) ∧
      (w.act (.check chunk)).2.last = frame := by
  obtain ⟨hverdict, hactive, hprevious⟩ := w.checker.check_of_frame h
  rw [← between_eq_judged]
  exact ⟨congrArg some hverdict, Prod.ext hactive hprevious⟩

/-- A chunk is ignored just when it is no frame. -/
theorem act_ignored_iff {act : Act} (h : act.IsShort) :
    (w.act act).1 = some .ignored ↔ ¬ act.matters w.checker.layout := by
  cases act with
  | clear => exact ⟨nofun, fun hclear => absurd rfl hclear⟩
  | check chunk =>
    rw [Act.matters, decide_eq_true_iff]
    have hfields := fields?_eq w.checker.layout h
    split at hfields
    · rename_i hframe
      rw [(act_of_frame hfields).1]
      simp [judged_ne_ignored, hframe]
    · rename_i hframe
      rw [act_of_no_frame hfields]
      simp [hframe]

/-- A chunk that is ignored leaves the checker and the counters as they were. -/
theorem act_eq_self {act : Act} (h : (w.act act).1 = some .ignored) : (w.act act).2 = w := by
  cases act with
  | clear => cases h
  | check chunk =>
    rcases hfields : w.checker.layout.fields? chunk with _ | frame
    · rw [act_of_no_frame hfields]
    · rw [(act_of_frame hfields).1] at h
      exact absurd (Option.some.inj h) (judged_ne_ignored w.last frame)

/-- A frame is judged by the one before it and takes its place. -/
theorem act_of_frame?_eq_some {act : Act} (hact : act.IsShort) {frame : UInt8 × UInt8}
    (h : act.frame? w.checker.layout = some frame) :
    (w.act act).1 = some (judged w.last frame) ∧ (w.act act).2.last = frame := by
  cases act with
  | clear => cases h
  | check chunk => exact act_of_frame ((fields?_eq w.checker.layout hact).trans h)

theorem act_of_frame?_eq_none {act : Act} (hact : act.IsShort)
    (h : act.frame? w.checker.layout = none) :
    ((w.act act).1 = none ∨ (w.act act).1 = some .ignored) ∧ (w.act act).2.last = w.last := by
  cases act with
  | clear => exact ⟨Or.inl rfl, rfl⟩
  | check chunk =>
    rw [act_of_no_frame ((fields?_eq w.checker.layout hact).trans h)]
    exact ⟨Or.inr rfl, rfl⟩

end Watch

/-! ## Any acts -/

namespace Watch

variable {w : Watch} {acts : List Act}

theorem after_cons (w : Watch) (act : Act) (acts : List Act) :
    w.after (act :: acts) = (w.act act).2.after acts := rfl

theorem after_append (w : Watch) (acts more : List Act) :
    w.after (acts ++ more) = (w.after acts).after more := List.foldl_append

theorem layout_after (w : Watch) (acts : List Act) :
    (w.after acts).checker.layout = w.checker.layout := by
  induction acts generalizing w with
  | nil => rfl
  | cons act acts ih => rw [after_cons, ih, layout_act]

theorem told_cons (w : Watch) (act : Act) (acts : List Act) :
    w.told (act :: acts) = (w.act act).1 :: (w.act act).2.told acts := rfl

theorem verdicts_cons (w : Watch) (act : Act) (acts : List Act) :
    w.verdicts (act :: acts) = (w.act act).1.toList ++ (w.act act).2.verdicts acts := by
  unfold verdicts
  rw [told_cons]
  cases (w.act act).1 <;> rfl

/-- Chunks that are no frames may be left out. -/
theorem without_ignored (h : ∀ act ∈ acts, act.IsShort) :
    w.after (acts.filter (Act.matters w.checker.layout)) = w.after acts ∧
      w.told (acts.filter (Act.matters w.checker.layout)) =
        (w.told acts).filter (fun verdict => verdict ≠ some .ignored) := by
  induction acts generalizing w with
  | nil => exact ⟨rfl, rfl⟩
  | cons act acts ih =>
    obtain ⟨hact, hacts⟩ := List.forall_mem_cons.mp h
    obtain ⟨hafter, htold⟩ := ih (w := (w.act act).2) hacts
    rw [layout_act] at hafter htold
    have hmatters := act_ignored_iff (w := w) hact
    rw [told_cons, after_cons]
    by_cases hignored : (w.act act).1 = some .ignored
    · rw [act_eq_self hignored] at hafter htold ⊢
      rw [List.filter_cons_of_neg (hmatters.mp hignored),
        List.filter_cons_of_neg (by simpa using hignored)]
      exact ⟨hafter, htold⟩
    · rw [List.filter_cons_of_pos (not_not.mp (mt hmatters.mpr hignored)),
        List.filter_cons_of_pos (by simpa using hignored), told_cons, after_cons, hafter, htold]
      exact ⟨rfl, rfl⟩

/-- The verdicts on the frames are those on each frame and the one before it. -/
theorem onFrames_verdicts (h : ∀ act ∈ acts, act.IsShort) :
    Verdict.onFrames (w.verdicts acts) =
      List.zipWith judged (w.last :: framesOf w.checker.layout acts)
        (framesOf w.checker.layout acts) := by
  induction acts generalizing w with
  | nil => rfl
  | cons act acts ih =>
    obtain ⟨hact, hacts⟩ := List.forall_mem_cons.mp h
    have hrest := ih (w := (w.act act).2) hacts
    rw [layout_act] at hrest
    rw [verdicts_cons, framesOf]
    rcases hframe : act.frame? w.checker.layout with _ | frame
    · obtain ⟨hverdict, hlast⟩ := act_of_frame?_eq_none hact hframe
      rw [hlast] at hrest
      rw [List.filterMap_cons_none hframe]
      rcases hverdict with hnone | hignored
      · rw [hnone]
        exact hrest
      · rw [hignored]
        exact hrest
    · obtain ⟨hverdict, hlast⟩ := act_of_frame?_eq_some hact hframe
      rw [hlast] at hrest
      rw [List.filterMap_cons_some hframe, List.zipWith_cons_cons, hverdict]
      apply (Verdict.onFrames_cons (judged_ne_ignored w.last frame) _).trans
      exact congrArg _ hrest

/-- Two checkers that saw the same frame last. -/
def Alike (w v : Watch) : Prop := w.checker.layout = v.checker.layout ∧ w.last = v.last

theorem Alike.step {w v : Watch} (h : Alike w v) (act : Act) :
    (w.act act).1 = (v.act act).1 ∧ Alike (w.act act).2 (v.act act).2 := by
  obtain ⟨hlayout, hlast⟩ := h
  cases act with
  | clear => exact ⟨rfl, hlayout, hlast⟩
  | check chunk =>
    rcases hfields : w.checker.layout.fields? chunk with _ | frame
    · rw [act_of_no_frame hfields, act_of_no_frame (hlayout ▸ hfields)]
      exact ⟨rfl, hlayout, hlast⟩
    · obtain ⟨hw, hw'⟩ := act_of_frame hfields
      obtain ⟨hv, hv'⟩ := act_of_frame (w := v) (hlayout ▸ hfields)
      refine ⟨by rw [hw, hv, hlast], ?_, hw'.trans hv'.symm⟩
      rw [layout_act, layout_act, hlayout]

/-- Where the figures are cleared, and whether they are, changes no verdict. -/
theorem verdicts_without_clears {w v : Watch} (h : Alike w v) (acts : List Act) :
    w.verdicts (acts.filter Act.isCheck) = v.verdicts acts := by
  induction acts generalizing w v with
  | nil => rfl
  | cons act acts ih =>
    cases act with
    | clear =>
      -- Only the right side clears, and it saw the same frame before and after.
      exact ih ⟨h.1, h.2⟩
    | check chunk =>
      obtain ⟨hverdict, halike⟩ := h.step (.check chunk)
      rw [List.filter_cons_of_pos rfl, verdicts_cons, verdicts_cons, hverdict, ih halike]

end Watch

/-! ## The law -/

/-- What the verdicts of a new checker depend on, and what becomes of the chunks it ignores. -/
structure ByNeighbours (layout : Layout) (acts : List Act) : Prop where
  /-- The next chunk is ignored just when it is too short or has not the markers in front. -/
  ignored_iff : ∀ chunk : Bytes, chunk.length < wordMax →
    ((((Watch.new layout).after acts).act (.check chunk)).1 = some .ignored ↔
      chunk.length < layout.minLength ∨ chunk.take 2 ≠ [layout.markers.1, layout.markers.2])
  untouched : ∀ chunk, (((Watch.new layout).after acts).act (.check chunk)).1 = some .ignored →
    (((Watch.new layout).after acts).act (.check chunk)).2 = (Watch.new layout).after acts
  /-- Without the chunks that are no frames the checker comes to the same state, -/
  same_state : (Watch.new layout).after (acts.filter (Act.matters layout)) =
    (Watch.new layout).after acts
  /-- and it tells the same of all else. -/
  same_told : (Watch.new layout).told (acts.filter (Act.matters layout)) =
    ((Watch.new layout).told acts).filter (fun verdict => verdict ≠ some .ignored)
  /-- Each frame is judged by the one before it, and the first as if two zeros came before. -/
  in_pairs : Verdict.onFrames ((Watch.new layout).verdicts acts) =
    List.zipWith judged ((0, 0) :: framesOf layout acts) (framesOf layout acts)
  same_without_clears : (Watch.new layout).verdicts (acts.filter Act.isCheck) =
    (Watch.new layout).verdicts acts

/-- Nothing that came before the last frame bears on a verdict. -/
theorem a_frame_is_judged_by_the_one_before (layout : Layout) (acts : List Act)
    (h : ∀ act ∈ acts, act.IsShort) : ByNeighbours layout acts := by
  obtain ⟨hstate, htold⟩ := Watch.without_ignored (w := Watch.new layout) h
  refine ⟨fun chunk hchunk => ?_, fun chunk => Watch.act_eq_self, hstate, htold,
    Watch.onFrames_verdicts h, Watch.verdicts_without_clears ⟨rfl, rfl⟩ acts⟩
  have hshort : (Act.check chunk).IsShort := hchunk
  have hignored := Watch.act_ignored_iff (w := (Watch.new layout).after acts) hshort
  rw [Watch.layout_after] at hignored
  rw [hignored, Act.matters, decide_eq_true_iff, Layout.Recognises, not_and_or, Nat.not_le]
  rfl

/-- Frames of the ids 9, 0, 7 and 8, with two tails and a clear in between. -/
theorem eight_frames_are_judged_in_pairs :
    let layout : Layout := { markers := (1, 2), sequenceOffset := 2, subIndexOffset := 3 }
    let acts : List Act :=
      [.check [1, 2, 9, 253], .check [1, 2, 9], .clear, .check [1, 2, 9, 3], .check [1, 2, 0, 7],
        .check [1, 2, 7, 7], .check [2, 2, 7, 8], .check [1, 2, 8, 1], .check [1, 2, 8, 1],
        .clear, .check [1, 2, 8, 2], .check [1, 2, 8, 1]]
    (∀ act ∈ acts, act.IsShort) ∧ ByNeighbours layout acts ∧
      (Watch.new layout).verdicts acts =
        [.adopted, .ignored, .loss 5, .unsequenced, .adopted, .ignored, .frameChanged, .duplicate,
          .continuous, .loss 254] := by
  intro layout acts
  have h : ∀ act ∈ acts, act.IsShort := by decide
  exact ⟨h, a_frame_is_judged_by_the_one_before layout acts h, by decide⟩

end SerialLink.Stream
