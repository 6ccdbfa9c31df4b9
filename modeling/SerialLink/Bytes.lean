-- Bytes as they travel: a chunk, a payload and a stream are all lists of bytes.

namespace SerialLink

/-- A run of bytes, oldest first. -/
abbrev Bytes := List UInt8

/-- Largest number that a 64-bit word holds. -/
def wordMax : Nat := 0xFFFFFFFFFFFFFFFF

/-- A sum or product cut off at the largest 64-bit word. -/
def saturated (n : Nat) : Nat := min n wordMax

end SerialLink
