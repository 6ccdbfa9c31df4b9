-- The loss figures of one stream: how much is missing, the largest gap, the
-- longest clean run, and how many frames were seen.
import SerialLink.Number.Binary64

namespace SerialLink.Stream

structure LossSummary where
  /-- Sum of all skipped sub-indices. -/
  totalLoss : Nat := 0
  maxLoss : Nat := 0
  /-- Longest run of frames that a gap ended. -/
  maxClean : Nat := 0
  totalFrames : Nat := 0
  deriving DecidableEq

namespace LossSummary

/-- Folds in one gap of `loss` sub-indices that ended a run of `clean` frames. -/
def recordLoss (s : LossSummary) (loss clean : Nat) : LossSummary :=
  { s with
    totalLoss := s.totalLoss + loss
    maxLoss := max s.maxLoss loss
    maxClean := max s.maxClean clean }

def recordFrame (s : LossSummary) : LossSummary := { s with totalFrames := s.totalFrames + 1 }

/-- Skipped sub-indices per frame; there is no rate before the first frame. -/
def lossRate (s : LossSummary) : Option Binary64 :=
  if s.totalFrames = 0 then none
  else some ((Binary64.ofNat s.totalLoss).div (Binary64.ofNat s.totalFrames))

/-- The figures in one line, the rate with four decimals. -/
def text (s : LossSummary) : String :=
  let rate := match s.lossRate with
    | some rate => rate.toFixed 4
    | none => "n/a"
  let lost := s!"lost: {s.totalLoss}, max gap: {s.maxLoss}, "
  let seen := s!"longest clean run: {s.maxClean}, frames: {s.totalFrames}, "
  lost ++ seen ++ "loss rate: " ++ rate

end LossSummary

end SerialLink.Stream
