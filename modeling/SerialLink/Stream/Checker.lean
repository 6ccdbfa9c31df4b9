-- The checker of a frame stream. It compares each frame with the frame before
-- it and tells gaps of the sub-index, which counts modulo 256.
import SerialLink.Stream.Layout
import SerialLink.Stream.LossSummary

namespace SerialLink.Stream

/-- What the checker makes of one chunk. -/
inductive Verdict
  /-- No frame: a fragment, a tail or some other message. -/
  | ignored
  /-- First frame of a frame id that was taken up. -/
  | adopted
  /-- The sub-index went up by one. -/
  | continuous
  /-- The sub-index was repeated. -/
  | duplicate
  /-- So many sub-indices were skipped. -/
  | loss (skipped : Nat)
  /-- The frame id is another than before. -/
  | frameChanged
  /-- The frame-sequence byte was zero. -/
  | unsequenced
  deriving DecidableEq

def Verdict.text : Verdict → String
  | .ignored => "Ignored"
  | .adopted => "Adopted"
  | .continuous => "Continuous"
  | .duplicate => "Duplicate"
  | .loss skipped => s!"Loss({skipped})"
  | .frameChanged => "FrameChanged"
  | .unsequenced => "Unsequenced"

/-- The verdict on a frame `(sequence, index)` that follows the frame `(active, previous)`; an
`active` of zero says that no frame id is taken up yet. -/
def Verdict.between (active previous sequence index : UInt8) : Verdict :=
  if sequence = 0 then .unsequenced
  else if active = 0 then .adopted
  else if sequence ≠ active then .frameChanged
  else
    match (index - previous).toNat with
    | 0 => .duplicate
    | 1 => .continuous
    | gap => .loss (gap - 1)

/-- Frames seen and sub-indices missed since the counters were made; nothing resets them. -/
structure FrameTotals where
  frames : Nat := 0
  lost : Nat := 0
  deriving DecidableEq

def FrameTotals.record (t : FrameTotals) : Verdict → FrameTotals
  | .ignored => t
  | .loss skipped => { frames := t.frames + 1, lost := t.lost + skipped }
  | _ => { t with frames := t.frames + 1 }

/-- What the checker remembers between two chunks. -/
structure Checker where
  layout : Layout
  /-- The frame id taken up, zero before the first. -/
  active : UInt8 := 0
  /-- Sub-index of the last frame. -/
  previous : UInt8 := 0
  /-- Frames without a gap since the last gap or the last frame id taken up. -/
  clean : Nat := 0
  summary : LossSummary := {}
  deriving DecidableEq

namespace Checker

/-- A checker that has seen nothing. -/
def new (layout : Layout) : Checker := { layout }

/-- Folds the verdict into the clean run and the summary. -/
def record (c : Checker) : Verdict → Checker
  | .adopted => { c with clean := 0 }
  | .continuous | .frameChanged => { c with clean := c.clean + 1 }
  | .loss skipped => { c with clean := 0, summary := c.summary.recordLoss skipped c.clean }
  | .ignored | .duplicate | .unsequenced => c

/-- Looks at one chunk as a single read brought it. A chunk that is no frame changes nothing. -/
def check (c : Checker) (chunk : Bytes) : Verdict × Checker :=
  match c.layout.fields? chunk with
  | none => (.ignored, c)
  | some (sequence, index) =>
    let verdict := Verdict.between c.active c.previous sequence index
    let seen := c.record verdict
    (verdict, { seen with
      summary := seen.summary.recordFrame
      active := sequence
      previous := index })

/-- Starts the figures again and keeps the place in the stream. -/
def clearSummary (c : Checker) : Checker := { c with summary := {} }

end Checker

end SerialLink.Stream
