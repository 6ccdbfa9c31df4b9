-- The ring between the reader and the slower consumer. It holds bytes first
-- in, first out, up to a limit; a chunk that does not fit is refused whole, so
-- a consumer never sees a chunk torn or out of order.
import SerialLink.Bytes
import SerialLink.Number.Binary64

namespace SerialLink

/-- Why a ring refused an operation. -/
inductive RingError
  /-- More bytes were put than there is room for. -/
  | overflow (requested available : Nat)
  /-- More bytes were asked for than are held. -/
  | underflow (requested held : Nat)
  /-- The limit can only be raised. -/
  | cannotShrink (current requested : Nat)
  deriving DecidableEq

def RingError.message : RingError → String
  | .overflow requested available =>
    s!"Ring buffer overflow: {requested} bytes requested, {available} available"
  | .underflow requested held =>
    s!"Ring buffer underflow: {requested} bytes requested, {held} held"
  | .cannotShrink current requested =>
    s!"Cannot reduce max capacity from {current} to {requested}"

/-- A bounded first-in first-out store of bytes. The bytes held are `size` places of
`storage`, counted from `head` and going on at the front behind the last place. -/
structure Ring where
  storage : Array UInt8
  /-- Most bytes the ring will ever hold; `storage` may still be smaller. -/
  capacity : Nat
  /-- Place of the oldest byte. -/
  head : Nat
  size : Nat
  /-- Bytes accepted so far. -/
  written : Nat
  /-- Bytes refused so far. -/
  rejected : Nat
  deriving DecidableEq

namespace Ring

/-! ## Making a ring -/

/-- Capacity of a ring when none is asked for. -/
def defaultCapacity : Nat := 2 * 1024 * 1024

/-- A ring that owns `initial` places at first and grows on demand up to `capacity`. -/
def growing (initial capacity : Nat) : Ring :=
  { storage := Array.replicate (min initial capacity) 0
    capacity, head := 0, size := 0, written := 0, rejected := 0 }

/-- A ring that owns all of its places from the start. -/
def fixed (capacity : Nat) : Ring :=
  { storage := Array.replicate capacity 0
    capacity, head := 0, size := 0, written := 0, rejected := 0 }

/-- A ring for which no capacity was asked. -/
def standard : Ring := fixed defaultCapacity

/-! ## Looking at it -/

def allocated (r : Ring) : Nat := r.storage.size

def available (r : Ring) : Nat := r.capacity - r.size

def isEmpty (r : Ring) : Bool := r.size == 0

/-- Share of the capacity in use; nothing can be in use of a ring without capacity. -/
def fill (r : Ring) : Binary64 :=
  if r.capacity = 0 then Binary64.zero else (Binary64.ofNat r.size).div (Binary64.ofNat r.capacity)

/-- The places `start`, `start + 1`, … of the storage, `n` of them: first up to its end, then on
from its front. -/
def window (r : Ring) (start n : Nat) : Bytes :=
  let first := min n (r.storage.size - start)
  (r.storage.extract start (start + first) ++ r.storage.extract 0 (n - first)).toList

/-- The `n` oldest bytes. -/
def oldest (r : Ring) (n : Nat) : Bytes := r.window (r.head % r.storage.size) n

/-- All bytes held, oldest first. -/
def contents (r : Ring) : Bytes := r.oldest r.size

/-- The byte `i` places behind the oldest, if one is held there. -/
def peek (r : Ring) (i : Nat) : Option UInt8 :=
  if i < r.size then r.storage[(r.head + i) % r.storage.size]? else none

/-- The `n` oldest bytes, which stay in the ring. -/
def look (r : Ring) (n : Nat) : Except RingError Bytes :=
  if n > r.size then .error (.underflow n r.size) else .ok (r.oldest n)

/-! ## Putting in -/

/-- Writes `bytes` over the places from `start` on. -/
def overwrite (storage : Array UInt8) (start : Nat) : Bytes → Array UInt8
  | [] => storage
  | b :: bs => overwrite (storage.setIfInBounds start b) (start + 1) bs

/-- Places that a ring owns after growing for `required` bytes: at least twice as many as before,
but never more than the capacity. -/
def grownSize (r : Ring) (required : Nat) : Nat :=
  min (max required (saturated (2 * r.storage.size))) r.capacity

/-- Moves the contents to the front of a larger storage. -/
def grow (r : Ring) (required : Nat) : Ring :=
  let held := r.contents
  { r with
    storage := overwrite (Array.replicate (r.grownSize required) 0) 0 held
    head := 0 }

/-- Writes behind the newest byte, once there is room for all of `data`. -/
def append (r : Ring) (data : Bytes) : Ring :=
  let tail := (r.head + r.size) % r.storage.size
  let first := min data.length (r.storage.size - tail)
  { r with
    storage := overwrite (overwrite r.storage tail (data.take first)) 0 (data.drop first)
    size := r.size + data.length
    written := r.written + data.length }

/-- Takes `data` in whole, or refuses it whole. The ring keeps count of both. -/
def put (r : Ring) (data : Bytes) : Except RingError Unit × Ring :=
  if data.isEmpty then (.ok (), r)
  else if data.length > r.available then
    (.error (.overflow data.length r.available), { r with rejected := r.rejected + data.length })
  else
    let required := r.size + data.length
    (.ok (), (if required > r.storage.size then r.grow required else r).append data)

def raise (r : Ring) (capacity : Nat) : Except RingError Unit × Ring :=
  if capacity < r.capacity then (.error (.cannotShrink r.capacity capacity), r)
  else (.ok (), { r with capacity })

/-! ## Taking out -/

/-- Forgets the `n` oldest bytes. An emptied ring starts at its front again. -/
def advance (r : Ring) (n : Nat) : Ring :=
  if n = 0 then r
  else
    let size := r.size - n
    { r with size, head := if size = 0 then 0 else (r.head + n) % r.storage.size }

/-- Takes out up to `n` of the oldest bytes. -/
def read (r : Ring) (n : Nat) : Bytes × Ring :=
  let count := min n r.size
  (r.oldest count, r.advance count)

def drain (r : Ring) : Bytes × Ring := (r.contents, r.advance r.size)

/-- Takes out everything and lays it behind what `out` already holds. -/
def drainOnto (r : Ring) (out : Bytes) : Nat × Bytes × Ring :=
  let (taken, rest) := r.drain
  (r.size, out ++ taken, rest)

/-- Drops exactly `n` bytes, or none. -/
def consume (r : Ring) (n : Nat) : Except RingError Unit × Ring :=
  if n > r.size then (.error (.underflow n r.size), r) else (.ok (), r.advance n)

def clear (r : Ring) : Ring := { r with head := 0, size := 0 }

end Ring

end SerialLink
