-- Where a sensor frame carries its marks: two marker bytes at the front, a
-- frame-sequence byte and a sub-index byte further in.
import SerialLink.Bytes

namespace SerialLink.Stream

/-- Byte positions that identify a sensor frame and its sequence fields. -/
structure Layout where
  /-- The bytes expected at offsets 0 and 1. -/
  markers : UInt8 × UInt8 := (0xFA, 0xD3)
  sequenceOffset : Nat := 8
  subIndexOffset : Nat := 17
  deriving DecidableEq

/-- Shortest chunk that holds every field, as a 64-bit word can tell it. -/
def Layout.minLength (l : Layout) : Nat :=
  saturated (max (max l.sequenceOffset l.subIndexOffset) 1 + 1)

/-- The frame-sequence byte and the sub-index of a chunk that is a frame. -/
def Layout.fields? (l : Layout) (chunk : Bytes) : Option (UInt8 × UInt8) :=
  if chunk[0]? = some l.markers.1 ∧ chunk[1]? = some l.markers.2 then
    match chunk[l.sequenceOffset]?, chunk[l.subIndexOffset]? with
    | some sequence, some index => some (sequence, index)
    | _, _ => none
  else none

end SerialLink.Stream
