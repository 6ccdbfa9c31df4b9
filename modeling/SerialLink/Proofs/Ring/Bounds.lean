-- The ring on a machine with words of 64 bits. There a sum may pass the
-- largest word, a difference may fall below zero, a remainder may be taken by
-- zero and a slice may leave its storage, and each of these stops the machine.
-- It never comes to that: the machine does what the ring does, or it stops
-- because a storage was asked for that no machine has. The two counts of bytes
-- are whole numbers here as there.
import SerialLink.Proofs.Ring.Queue

namespace SerialLink.Ring

/-! ## A machine of words and slices -/

/-- Most places that a slice or a storage may have. -/
def sizeMax : Nat := 0x7FFFFFFFFFFFFFFF

/-- A step that the machine cannot make. -/
inductive Fault
  | sum (a b : Nat)
  | difference (a b : Nat)
  | remainderByZero (a : Nat)
  | index (i size : Nat)
  | slice (start stop size : Nat)
  /-- A slice was to be filled with another number of bytes. -/
  | copy (room count : Nat)
  deriving DecidableEq

/-- Why the machine stops. -/
inductive Stop
  | fault (f : Fault)
  /-- More places were asked for than a storage may have. -/
  | memory
  deriving DecidableEq

/-- What comes of a computation of the machine. -/
abbrev Checked (α : Type) := Except Stop α

namespace Checked

def plus (a b : Nat) : Checked Nat :=
  if a + b ≤ wordMax then .ok (a + b) else .error (.fault (.sum a b))

def minus (a b : Nat) : Checked Nat :=
  if b ≤ a then .ok (a - b) else .error (.fault (.difference a b))

def remainder (a n : Nat) : Checked Nat :=
  if n = 0 then .error (.fault (.remainderByZero a)) else .ok (a % n)

def byteAt (storage : Array UInt8) (i : Nat) : Checked UInt8 :=
  match storage[i]? with
  | some b => .ok b
  | none => .error (.fault (.index i storage.size))

/-- The places from `start` on, up to `stop`. -/
def slice (storage : Array UInt8) (start stop : Nat) : Checked Bytes :=
  if start ≤ stop ∧ stop ≤ storage.size then .ok (storage.extract start stop).toList
  else .error (.fault (.slice start stop storage.size))

/-- Fills a slice with as many bytes as it has places. -/
def fill (storage : Array UInt8) (start stop : Nat) (bytes : Bytes) : Checked (Array UInt8) :=
  if ¬ (start ≤ stop ∧ stop ≤ storage.size) then
    .error (.fault (.slice start stop storage.size))
  else if bytes.length ≠ stop - start then .error (.fault (.copy (stop - start) bytes.length))
  else .ok (overwrite storage start bytes)

/-- Zeros behind what is there, so that there are `n` places. -/
def resize (storage : Array UInt8) (n : Nat) : Checked (Array UInt8) :=
  if n ≤ sizeMax then .ok (storage ++ Array.replicate (n - storage.size) 0) else .error .memory

def allocate (n : Nat) : Checked (Array UInt8) := resize #[] n

/-! ## The operations on the machine -/

/-- Fills `out` with the bytes from `offset` places behind the oldest on. -/
def copyOut (r : Ring) (offset : Nat) (out : Array UInt8) : Checked (Array UInt8) :=
  if out.size = 0 then .ok out
  else do
    let start ← remainder (← plus r.head offset) r.storage.size
    let first := min out.size (← minus r.storage.size start)
    let front ← slice r.storage start (← plus start first)
    let filled ← fill out 0 first front
    let rest ← minus out.size first
    fill filled first out.size (← slice r.storage 0 rest)

def advance (r : Ring) (n : Nat) : Checked Ring :=
  if n = 0 then .ok r
  else do
    let size ← minus r.size n
    let head ← (if size = 0 then .ok 0 else do remainder (← plus r.head n) r.storage.size)
    .ok { r with size, head }

def grow (r : Ring) (required : Nat) : Checked Ring := do
  let storage ← allocate (r.grownSize required)
  let room ← slice storage 0 r.size
  let held ← copyOut r 0 room.toArray
  .ok { r with storage := ← fill storage 0 r.size held.toList, head := 0 }

/-- Writes behind the newest byte, around the end of the storage. -/
def append (r : Ring) (data : Bytes) : Checked Ring := do
  let tail ← remainder (← plus r.head r.size) r.storage.size
  let first := min data.length (← minus r.storage.size tail)
  let front ← slice data.toArray 0 first
  let filled ← fill r.storage tail (← plus tail first) front
  let back ← slice data.toArray first data.length
  .ok { r with
    storage := ← fill filled 0 (← minus data.length first) back
    size := ← plus r.size data.length
    written := r.written + data.length }

def put (r : Ring) (data : Bytes) : Checked (Except RingError Unit × Ring) :=
  if data = [] then .ok (.ok (), r)
  else do
    let available ← minus r.capacity r.size
    if data.length > available then
      .ok (.error (.overflow data.length available),
        { r with rejected := r.rejected + data.length })
    else
      let required ← plus r.size data.length
      let grown ← (if required > r.storage.size then grow r required else .ok r)
      .ok (.ok (), ← append grown data)

/-- A fresh vector of the `n` oldest bytes. -/
def oldest (r : Ring) (n : Nat) : Checked Bytes := do
  let out ← copyOut r 0 (← allocate n)
  .ok out.toList

/-- One operation on the machine. -/
def perform (r : Ring) : Op → Checked (Answer × Ring)
  | .put data => do
    let (result, r) ← put r data
    .ok (.outcome result, r)
  | .read n => do
    let count := min n r.size
    let taken ← oldest r count
    .ok (.taken taken, ← advance r count)
  | .drain out => do
    let whole ← plus out.length r.size
    let resized ← resize out.toArray whole
    let room ← slice resized out.length whole
    let held ← copyOut r 0 room.toArray
    let filled ← fill resized out.length whole held.toList
    .ok (.drained r.size filled.toList, ← advance r r.size)
  | .peek i =>
    if i < r.size then do
      let b ← byteAt r.storage (← remainder (← plus r.head i) r.storage.size)
      .ok (.byte (some b), r)
    else .ok (.byte none, r)
  | .look n =>
    if n > r.size then .ok (.looked (.error (.underflow n r.size)), r)
    else do
      let bytes ← oldest r n
      .ok (.looked (.ok bytes), r)
  | .consume n =>
    if n > r.size then .ok (.outcome (.error (.underflow n r.size)), r)
    else do .ok (.outcome (.ok ()), ← advance r n)
  | .raise limit => .ok (.outcome (r.raise limit).1, (r.raise limit).2)
  | .clear => .ok (.outcome (.ok ()), r.clear)

def gauges (r : Ring) : Checked Gauges := do
  .ok ⟨r.size, r.isEmpty, ← minus r.capacity r.size, r.capacity⟩

/-- What each of some operations answers and what the gauges show behind it, and the ring behind
them all. -/
def run : Ring → List Op → Checked (List (Answer × Gauges) × Ring)
  | r, [] => .ok ([], r)
  | r, op :: ops => do
    let (answer, r) ← perform r op
    let shown ← gauges r
    let (more, r) ← run r ops
    .ok ((answer, shown) :: more, r)

/-- A fresh ring. -/
def make : Origin → Checked Ring
  | .fixed capacity => do
    .ok { Ring.fixed capacity with storage := ← allocate capacity }
  | .standard => do
    .ok { Ring.standard with storage := ← allocate defaultCapacity }
  | .growing initial capacity => do
    .ok { Ring.growing initial capacity with storage := ← allocate (min initial capacity) }

/-- A fresh ring that is worked with. -/
def session (o : Origin) (ops : List Op) : Checked (List (Answer × Gauges) × Ring) := do
  run (← make o) ops

/-! ## Steps that the machine can make -/

variable {r : Ring} {a b n start stop : Nat} {storage : Array UInt8} {bytes : Bytes}

theorem ok_bind {α β : Type} (v : α) (f : α → Checked β) : ((.ok v : Checked α) >>= f) = f v := rfl

theorem plus_eq (h : a + b ≤ wordMax) : plus a b = .ok (a + b) := if_pos h

theorem minus_eq (h : b ≤ a) : minus a b = .ok (a - b) := if_pos h

theorem remainder_eq (h : 0 < n) : remainder a n = .ok (a % n) := if_neg (Nat.pos_iff_ne_zero.mp h)

theorem slice_eq (h : start ≤ stop) (hs : stop ≤ storage.size) :
    slice storage start stop = .ok (storage.extract start stop).toList := if_pos ⟨h, hs⟩

theorem fill_eq (hs : start + bytes.length = stop) (h : stop ≤ storage.size) :
    fill storage start stop bytes = .ok (overwrite storage start bytes) := by
  unfold fill
  rw [if_neg (by simp only [not_not]; omega), if_neg (by simp only [not_not]; omega)]

theorem allocate_eq (h : n ≤ sizeMax) : allocate n = .ok (Array.replicate n 0) := by
  unfold allocate resize
  rw [if_pos h]
  simp

/-- Overwriting keeps what stands before and behind. -/
theorem toList_overwrite (hfit : start + bytes.length ≤ storage.size) :
    (overwrite storage start bytes).toList =
      storage.toList.take start ++ bytes ++ storage.toList.drop (start + bytes.length) := by
  have hlen : storage.toList.length = storage.size := Array.length_toList
  apply List.ext_getElem?
  intro j
  rw [Array.getElem?_toList, getElem?_overwrite _ _ _ _ hfit, List.append_assoc,
    List.getElem?_append, List.length_take, hlen, Nat.min_eq_left (by omega),
    List.getElem?_append, List.getElem?_drop]
  split
  · rename_i hin
    rw [if_neg (by omega), if_pos (by omega)]
  · split
    · rw [List.getElem?_take_of_lt ‹_›, Array.getElem?_toList]
    · rw [if_neg (by omega), Array.getElem?_toList]
      congr 1
      omega

/-- A window that is copied out fills its room with the oldest bytes. -/
theorem copyOut_eq (h : r.Sound) (hmem : r.storage.size ≤ sizeMax) {out : Array UInt8}
    (hout : out.size ≤ r.size) : copyOut r 0 out = .ok (r.oldest out.size).toArray := by
  have hsize := h.size_le
  have hhead := h.head_le
  unfold copyOut
  split
  · rename_i hzero
    obtain rfl := Array.size_eq_zero_iff.mp hzero
    simp [Ring.oldest, window]
  · have hpos : 0 < r.storage.size := by omega
    have hstart := Nat.mod_lt r.head hpos
    rw [plus_eq (by unfold wordMax sizeMax at *; omega), ok_bind, remainder_eq hpos, ok_bind,
      Nat.add_zero]
    unfold Ring.oldest window
    generalize r.head % r.storage.size = start at *
    rw [minus_eq (Nat.le_of_lt hstart), ok_bind]
    dsimp only
    generalize hfirst : min out.size (r.storage.size - start) = first
    rw [plus_eq (by unfold wordMax sizeMax at *; omega), ok_bind,
      slice_eq (by omega) (by omega), ok_bind]
    have hfront : (r.storage.extract start (start + first)).toList.length = first := by
      rw [Array.length_toList, Array.size_extract]
      omega
    have hback : (r.storage.extract 0 (out.size - first)).toList.length = out.size - first := by
      rw [Array.length_toList, Array.size_extract]
      omega
    rw [fill_eq (by omega) (by omega), ok_bind, minus_eq (by omega), ok_bind,
      slice_eq (Nat.zero_le _) (by omega), ok_bind,
      fill_eq (by omega) (by rw [size_overwrite])]
    refine congrArg _ (Array.toList_inj.mp ?_)
    rw [toList_overwrite (by rw [size_overwrite]; omega), toList_overwrite (by omega), hfront,
      hback, Array.toList_append]
    have hleft : (List.take 0 out.toList ++ (r.storage.extract start (start + first)).toList ++
        List.drop (0 + first) out.toList).take first =
        (r.storage.extract start (start + first)).toList := by
      rw [List.take_zero, List.nil_append, List.take_append_of_le_length (by omega),
        List.take_of_length_le (by omega)]
    rw [hleft, List.drop_eq_nil_of_le, List.append_nil]
    simp only [List.length_append, List.length_take, List.length_drop, hfront,
      Array.length_toList]
    omega

theorem advance_eq (h : r.Sound) (hmem : r.storage.size ≤ sizeMax) (hn : n ≤ r.size) :
    advance r n = .ok (r.advance n) := by
  have hsize := h.size_le
  have hhead := h.head_le
  unfold advance Ring.advance
  split
  · rfl
  · rw [minus_eq hn, ok_bind]
    dsimp only
    split
    · rfl
    · rw [plus_eq (by unfold wordMax sizeMax at *; omega), ok_bind, remainder_eq (by omega)]
      rfl

theorem oldest_eq (h : r.Sound) (hmem : r.storage.size ≤ sizeMax) (hn : n ≤ r.size) :
    oldest r n = .ok (r.oldest n) := by
  have hsize := h.size_le
  have hout : (Array.replicate n (0 : UInt8)).size = n := Array.size_replicate
  unfold oldest
  rw [allocate_eq (by omega), ok_bind, copyOut_eq h hmem (by omega), ok_bind, hout]

/-- Growing asks for the places that the ring has then. -/
theorem grow_eq (h : r.Sound) (hmem : r.storage.size ≤ sizeMax) {required : Nat}
    (hsize : r.size ≤ required) (hcap : required ≤ r.capacity) :
    grow r required =
      if r.grownSize required ≤ sizeMax then .ok (r.grow required) else .error .memory := by
  unfold grow
  split
  · have hroom := r.le_grownSize hcap
    have hheld : r.contents.length = r.size := length_contents h
    rw [allocate_eq ‹_›, ok_bind, slice_eq (Nat.zero_le _) (by rw [Array.size_replicate]; omega),
      ok_bind]
    have hout : (Array.extract (Array.replicate (r.grownSize required) (0 : UInt8)) 0
        r.size).toList.toArray.size = r.size := by
      rw [Array.toArray_toList, Array.size_extract, Array.size_replicate]
      omega
    rw [copyOut_eq h hmem (by omega), ok_bind, hout]
    show (fill _ 0 r.size r.contents >>= _) = _
    rw [fill_eq (by omega) (by rw [Array.size_replicate]; omega)]
    rfl
  · unfold allocate resize
    rw [if_neg ‹_›]
    rfl

theorem append_eq (h : r.Sound) (hmem : r.storage.size ≤ sizeMax) {data : Bytes} (hd : data ≠ [])
    (hroom : r.size + data.length ≤ r.storage.size) : append r data = .ok (r.append data) := by
  have hpos : 0 < data.length := List.length_pos_iff.mpr hd
  have hhead := h.head_le
  have htail : (r.head + r.size) % r.storage.size < r.storage.size := Nat.mod_lt _ (by omega)
  unfold append Ring.append
  rw [plus_eq (by unfold wordMax sizeMax at *; omega), ok_bind, remainder_eq (by omega), ok_bind]
  dsimp only
  generalize (r.head + r.size) % r.storage.size = tail at *
  rw [minus_eq (Nat.le_of_lt htail), ok_bind]
  generalize hfirst : min data.length (r.storage.size - tail) = first
  rw [slice_eq (Nat.zero_le _) (by rw [List.size_toArray]; omega), ok_bind,
    plus_eq (by unfold wordMax sizeMax at *; omega), ok_bind]
  have hfront : (data.toArray.extract 0 first).toList = data.take first := by
    rw [Array.toList_extract, List.extract_eq_take_drop, List.drop_zero, Nat.sub_zero]
  have hback : (data.toArray.extract first data.length).toList = data.drop first := by
    rw [Array.toList_extract, List.extract_eq_take_drop]
    exact List.take_of_length_le (by simp)
  rw [hfront, fill_eq (by rw [List.length_take]; omega) (by omega), ok_bind,
    slice_eq (by omega) (by rw [List.size_toArray]), ok_bind, hback, minus_eq (by omega), ok_bind,
    fill_eq (by rw [List.length_drop]; omega) (by rw [size_overwrite]; omega), ok_bind,
    plus_eq (by unfold wordMax sizeMax at *; omega)]
  rfl

/-! ## Operations that fit the machine -/

end Checked

/-- The vectors and slices that an operation is given are such as a machine has. -/
def Op.Fits : Op → Prop
  | .put data => data.length ≤ sizeMax
  | .drain out => out.length ≤ sizeMax
  | _ => True

instance : (op : Op) → Decidable op.Fits
  | .put data => inferInstanceAs (Decidable (data.length ≤ sizeMax))
  | .drain out => inferInstanceAs (Decidable (out.length ≤ sizeMax))
  | .read _ | .peek _ | .look _ | .consume _ | .raise _ | .clear => inferInstanceAs (Decidable True)

/-- Most places that an operation needs in one storage. -/
def Op.asks (r : Ring) : Op → Nat
  | .put data => (r.put data).2.storage.size
  | .drain out => out.length + r.size
  | _ => 0

/-- No operation needs more places than a storage may have. -/
def Affords : Ring → List Op → Prop
  | _, [] => True
  | r, op :: ops => op.asks r ≤ sizeMax ∧ Affords (r.perform op).2 ops

instance decidableAffords : (r : Ring) → (ops : List Op) → Decidable (r.Affords ops)
  | _, [] => inferInstanceAs (Decidable True)
  | r, op :: ops =>
    have := decidableAffords (r.perform op).2 ops
    inferInstanceAs (Decidable (_ ∧ _))

namespace Checked

variable {r : Ring}

/-- Data that fits is put whole, once the storage has places for it. -/
theorem put_fitting_eq (h : r.Sound) (hmem : r.storage.size ≤ sizeMax) {data : Bytes}
    (hd : data ≠ []) (hdata : data.length ≤ sizeMax) (hfit : r.size + data.length ≤ r.capacity) :
    put r data = if (r.put data).2.storage.size ≤ sizeMax then .ok (r.put data)
      else .error .memory := by
  have hsize := h.size_le
  have havailable : ¬ data.length > r.capacity - r.size := by omega
  unfold put
  rw [if_neg hd, minus_eq h.size_le_capacity, ok_bind, if_neg havailable,
    plus_eq (by unfold wordMax sizeMax at *; omega), ok_bind]
  by_cases hgrow : r.size + data.length > r.storage.size
  · have hput : r.put data = (.ok (), (r.grow (r.size + data.length)).append data) := by
      simp only [Ring.put, List.isEmpty_iff, available, if_neg hd, if_neg havailable, if_pos hgrow]
    have hplaces : (r.grow (r.size + data.length)).storage.size =
        r.grownSize (r.size + data.length) := by simp [Ring.grow]
    have hgrown : (r.put data).2.storage.size = r.grownSize (r.size + data.length) := by
      rw [hput, ← hplaces]
      simp [Ring.append]
    rw [if_pos hgrow, grow_eq h hmem (Nat.le_add_right _ _) hfit, hgrown]
    split
    · rw [ok_bind, append_eq (sound_grow (Nat.le_add_right _ _) hfit) (by rw [hplaces]; assumption)
        hd (by rw [hplaces]; exact r.le_grownSize hfit), hput]
      rfl
    · rfl
  · have hput : r.put data = (.ok (), r.append data) := by
      simp only [Ring.put, List.isEmpty_iff, available, if_neg hd, if_neg havailable, if_neg hgrow]
    have hplaces : (r.put data).2.storage.size = r.storage.size := by
      rw [hput]
      simp [Ring.append]
    rw [if_neg hgrow, hplaces, if_pos hmem, ok_bind, append_eq h hmem hd (by omega), hput]
    rfl

theorem put_eq (h : r.Sound) (hmem : r.storage.size ≤ sizeMax) {data : Bytes}
    (hdata : data.length ≤ sizeMax) :
    put r data = if (r.put data).2.storage.size ≤ sizeMax then .ok (r.put data)
      else .error .memory := by
  rcases eq_or_ne data [] with rfl | hd
  · exact (if_pos hmem).symm
  · have hcap := h.size_le_capacity
    rcases Nat.lt_or_ge r.capacity (r.size + data.length) with hover | hfit
    · rw [put_overflows h hd hover, if_pos hmem]
      unfold put
      rw [if_neg hd, minus_eq hcap, ok_bind, if_pos (by omega)]
      rfl
    · exact put_fitting_eq h hmem hd hdata hfit

/-- A vector is made longer by the bytes held, and they are copied behind what it had. -/
theorem drain_eq (h : r.Sound) (hmem : r.storage.size ≤ sizeMax) {out : Bytes}
    (hout : out.length ≤ sizeMax) :
    perform r (.drain out) =
      if out.length + r.size ≤ sizeMax then .ok (r.perform (.drain out)) else .error .memory := by
  have hsize := h.size_le
  have hheld : r.contents.length = r.size := length_contents h
  simp only [perform]
  rw [plus_eq (by unfold wordMax sizeMax at *; omega), ok_bind]
  unfold resize
  split
  · rw [ok_bind]
    generalize hresized : out.toArray ++
      Array.replicate (out.length + r.size - out.toArray.size) (0 : UInt8) = resized
    have hplaces : resized.size = out.length + r.size := by
      rw [← hresized, Array.size_append, Array.size_replicate, List.size_toArray]
      omega
    have hfront : resized.toList.take out.length = out := by
      rw [← hresized, Array.toList_append, List.take_left]
    rw [slice_eq (Nat.le_add_right _ _) (by omega), ok_bind]
    have hroom : (resized.extract out.length (out.length + r.size)).toList.toArray.size =
        r.size := by
      rw [Array.toArray_toList, Array.size_extract]
      omega
    rw [copyOut_eq h hmem (by omega), ok_bind, hroom]
    show (fill _ _ _ r.contents >>= _) = _
    rw [fill_eq (by omega) (by omega), ok_bind, advance_eq h hmem (Nat.le_refl _), ok_bind,
      toList_overwrite (by omega), hfront, List.drop_eq_nil_of_le (by
        rw [Array.length_toList]
        omega), List.append_nil]
    rfl
  · rfl

/-- The machine does what the ring does, or it is asked for more than a storage may have. -/
theorem perform_eq (h : r.Sound) (hmem : r.storage.size ≤ sizeMax) {op : Op} (hop : op.Fits) :
    perform r op = if op.asks r ≤ sizeMax then .ok (r.perform op) else .error .memory := by
  have hsize := h.size_le
  have hhead := h.head_le
  cases op with
  | put data =>
    simp only [perform, put_eq h hmem hop]
    by_cases hask : (r.put data).2.storage.size ≤ sizeMax
    · rw [if_pos hask, if_pos (show Op.asks r (.put data) ≤ sizeMax from hask)]
      rfl
    · rw [if_neg hask, if_neg (show ¬ Op.asks r (.put data) ≤ sizeMax from hask)]
      rfl
  | drain out => exact drain_eq h hmem hop
  | read n =>
    have hcount : min n r.size ≤ r.size := Nat.min_le_right _ _
    simp only [perform, Op.asks]
    rw [oldest_eq h hmem hcount, ok_bind, advance_eq h hmem hcount]
    rfl
  | peek i =>
    simp only [perform, Op.asks, Ring.perform, Ring.peek]
    split
    · have hplace := Nat.mod_lt (r.head + i) (show 0 < r.storage.size by omega)
      rw [plus_eq (by unfold wordMax sizeMax at *; omega), ok_bind, remainder_eq (by omega),
        ok_bind]
      unfold byteAt
      rw [Array.getElem?_eq_getElem hplace]
      rfl
    · rfl
  | look n =>
    simp only [perform, Op.asks, Ring.perform, Ring.look]
    split
    · rfl
    · rw [oldest_eq h hmem (by omega)]
      rfl
  | consume n =>
    simp only [perform, Op.asks, Ring.perform, Ring.consume]
    split
    · rfl
    · rw [advance_eq h hmem (by omega)]
      rfl
  | raise limit => rfl
  | clear => rfl

theorem gauges_eq (h : r.Sound) : gauges r = .ok r.gauges := by
  unfold gauges
  rw [minus_eq h.size_le_capacity]
  rfl

/-- An operation that is afforded leaves a storage that may be. -/
theorem storage_le_of_asks (hmem : r.storage.size ≤ sizeMax) {op : Op}
    (hask : op.asks r ≤ sizeMax) : (r.perform op).2.storage.size ≤ sizeMax := by
  cases op with
  | put data => exact hask
  | read n | drain out | peek i | look n =>
    simpa [Ring.perform, Ring.read, drainOnto, drain, Ring.advance, apply_ite] using hmem
  | consume n =>
    simp only [Ring.perform, Ring.consume]
    split
    · exact hmem
    · simpa [Ring.advance, apply_ite] using hmem
  | raise limit =>
    simp only [Ring.perform, raise]
    split <;> exact hmem
  | clear => exact hmem

theorem run_eq (h : r.Sound) (hmem : r.storage.size ≤ sizeMax) {ops : List Op}
    (hops : ∀ op ∈ ops, op.Fits) :
    run r ops = if r.Affords ops then .ok (r.answers ops, r.after ops) else .error .memory := by
  induction ops generalizing r with
  | nil => rfl
  | cons op ops ih =>
    rw [run, perform_eq h hmem (hops op List.mem_cons_self)]
    by_cases hask : op.asks r ≤ sizeMax
    · have hs := (perform_queue h op).1
      rw [if_pos hask, ok_bind]
      dsimp only
      rw [gauges_eq hs, ok_bind,
        ih hs (storage_le_of_asks hmem hask) fun op hop => hops op (List.mem_cons_of_mem _ hop)]
      by_cases hrest : (r.perform op).2.Affords ops
      · rw [if_pos hrest, if_pos (show r.Affords (op :: ops) from ⟨hask, hrest⟩)]
        rfl
      · rw [if_neg hrest, if_neg (show ¬ r.Affords (op :: ops) from fun hall => hrest hall.2)]
        rfl
    · rw [if_neg hask, if_neg (show ¬ r.Affords (op :: ops) from fun hall => hask hall.1)]
      rfl

theorem make_eq (o : Origin) :
    make o = if o.ring.allocated ≤ sizeMax then .ok o.ring else .error .memory := by
  have hmake : ∀ (r : Ring) (n : Nat), r.storage = Array.replicate n 0 →
      (do .ok { r with storage := ← allocate n } : Checked Ring) =
        if r.allocated ≤ sizeMax then .ok r else .error .memory := by
    intro r n hr
    unfold allocated
    rw [hr, Array.size_replicate]
    split
    · rw [allocate_eq ‹_›, ok_bind, ← hr]
    · unfold allocate resize
      rw [if_neg ‹_›]
      rfl
  cases o with
  | fixed capacity => exact hmake (Ring.fixed capacity) _ rfl
  | standard => exact hmake Ring.standard _ rfl
  | growing initial capacity => exact hmake (Ring.growing initial capacity) _ rfl

end Checked

/-! ## The law -/

/-- No sum, difference, remainder or slice of a ring goes wrong, however the ring was made and
whatever is done to it. The machine gives every answer that the ring gives and shows every gauge,
unless a storage is asked for that it cannot have; and no more is held than is allocated, no more
is allocated than the capacity, and the head is a place of the storage or zero. -/
theorem no_step_of_a_ring_goes_out_of_bounds (o : Origin) (ops : List Op)
    (hops : ∀ op ∈ ops, op.Fits) :
    (Checked.session o ops =
      if o.ring.allocated ≤ sizeMax ∧ o.ring.Affords ops then
        .ok (o.ring.answers ops, o.ring.after ops)
      else .error .memory) ∧
      (o.ring.after ops).size ≤ (o.ring.after ops).allocated ∧
      (o.ring.after ops).allocated ≤ (o.ring.after ops).capacity ∧
      ((o.ring.after ops).head = 0 ∨ (o.ring.after ops).head < (o.ring.after ops).allocated) := by
  have hs := (after_queue o.sound ops).1
  refine ⟨?_, hs.size_le, hs.storage_le, hs.head_le⟩
  unfold Checked.session
  rw [Checked.make_eq]
  by_cases hmem : o.ring.allocated ≤ sizeMax
  · rw [if_pos hmem, Checked.ok_bind, Checked.run_eq o.sound hmem hops]
    simp only [hmem, true_and]
  · rw [if_neg hmem, if_neg fun hboth => hmem hboth.1]
    rfl

/-- A ring without places grows, wraps around its end and grows again. -/
theorem a_ring_that_wraps_and_grows_stays_in_bounds :
    let ops : List Op :=
      [.put [], .put [1, 2, 3], .read 2, .put [4, 5], .raise 8, .put [6, 7, 8], .look 5,
        .consume 6, .drain [0], .put [9]]
    (∀ op ∈ ops, op.Fits) ∧
      Checked.session (.growing 0 4) ops =
        .ok ((growing 0 4).answers ops, (growing 0 4).after ops) ∧
      ((growing 0 4).after ops).size = 1 := by
  intro ops
  have hfits : ∀ op ∈ ops, op.Fits := by decide
  exact ⟨hfits, (no_step_of_a_ring_goes_out_of_bounds _ ops hfits).1.trans (if_pos (by decide)),
    by decide⟩

end SerialLink.Ring
