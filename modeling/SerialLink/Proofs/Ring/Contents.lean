-- What a ring holds, seen as a list. The bytes held are the front of the
-- storage turned by `head`, so each operation on the wrapped window is an
-- operation on that list, whatever the storage and the head are.
import Mathlib.Data.List.Rotate
import SerialLink.Ring

namespace SerialLink.Ring

/-! ## The invariant -/

/-- What every operation keeps: no more is held than the storage has places, the storage is no
larger than the capacity, and the head is a place of the storage or zero. -/
structure Sound (r : Ring) : Prop where
  size_le : r.size ≤ r.storage.size
  storage_le : r.storage.size ≤ r.capacity
  head_le : r.head = 0 ∨ r.head < r.storage.size

theorem Sound.size_le_capacity {r : Ring} (h : r.Sound) : r.size ≤ r.capacity :=
  le_trans h.size_le h.storage_le

/-! ## Places of the window -/

/-- A place of the window, by comparison: the sum passes the end of the storage at most once. -/
theorem place_eq {n h i : Nat} (hh : h < n) (hi : i < n) :
    h + i < n ∧ (h + i) % n = h + i ∨ n ≤ h + i ∧ (h + i) % n = h + i - n := by
  rcases Nat.lt_or_ge (h + i) n with hlt | hge
  · exact Or.inl ⟨hlt, Nat.mod_eq_of_lt hlt⟩
  · refine Or.inr ⟨hge, ?_⟩
    rw [Nat.mod_eq_sub_mod hge, Nat.mod_eq_of_lt (by omega)]

/-- A window that is no longer than the storage is the front of the turned storage. -/
theorem window_eq (r : Ring) (start n : Nat) (hs : start ≤ r.storage.size)
    (hn : n ≤ r.storage.size) :
    r.window start n =
      (r.storage.toList.drop start ++ r.storage.toList.take start).take n := by
  have hlen : r.storage.toList.length = r.storage.size := Array.length_toList
  unfold window
  simp only [Array.toList_append, Array.toList_extract, List.extract_eq_take_drop, List.drop_zero,
    Nat.sub_zero]
  rw [List.take_append, List.length_drop, hlen, List.take_take]
  rcases Nat.le_total n (r.storage.size - start) with h | h
  · rw [Nat.min_eq_left h, Nat.sub_self, Nat.sub_eq_zero_of_le h]
    simp
  · have hdrop : (r.storage.toList.drop start).length = r.storage.size - start := by
      rw [List.length_drop, hlen]
    rw [Nat.min_eq_right h, Nat.add_sub_cancel_left, Nat.min_eq_left (by omega),
      List.take_of_length_le (Nat.le_of_eq hdrop)]
    congr 1
    exact (List.take_of_length_le (by omega)).symm

theorem oldest_eq (r : Ring) (n : Nat) (hn : n ≤ r.storage.size) :
    r.oldest n = (r.storage.toList.rotate r.head).take n := by
  rcases Nat.eq_zero_or_pos r.storage.size with h0 | hpos
  · obtain rfl : n = 0 := by omega
    simp [oldest, window]
  · unfold oldest
    rw [window_eq r _ n (Nat.le_of_lt (Nat.mod_lt _ hpos)) hn]
    rw [List.rotate_eq_drop_append_take_mod, Array.length_toList]

/-- The bytes held are the front of the turned storage. -/
theorem contents_eq {r : Ring} (h : r.Sound) :
    r.contents = (r.storage.toList.rotate r.head).take r.size := oldest_eq r r.size h.size_le

@[simp] theorem length_contents {r : Ring} (h : r.Sound) : r.contents.length = r.size := by
  rw [contents_eq h, List.length_take, List.length_rotate, Array.length_toList]
  exact Nat.min_eq_left h.size_le

theorem contents_eq_nil {r : Ring} (h : r.Sound) : r.contents = [] ↔ r.size = 0 := by
  rw [← length_contents h, List.length_eq_zero_iff]

/-- The byte held at place `i`, and the place of the storage that has it. -/
theorem getElem?_contents {r : Ring} (h : r.Sound) {i : Nat} (hi : i < r.size) :
    r.contents[i]? = r.storage[(r.head + i) % r.storage.size]? := by
  have hlt : i < r.storage.toList.length := by
    rw [Array.length_toList]; exact Nat.lt_of_lt_of_le hi h.size_le
  rw [contents_eq h, List.getElem?_take_of_lt hi, List.getElem?_rotate hlt, Array.length_toList,
    Array.getElem?_toList, Nat.add_comm]

/-! ## Looking -/

theorem oldest_eq_take {r : Ring} (h : r.Sound) {n : Nat} (hn : n ≤ r.size) :
    r.oldest n = r.contents.take n := by
  rw [oldest_eq r n (le_trans hn h.size_le), contents_eq h, List.take_take, Nat.min_eq_left hn]

theorem peek_eq {r : Ring} (h : r.Sound) (i : Nat) : r.peek i = r.contents[i]? := by
  unfold peek
  split
  · rw [getElem?_contents h ‹_›]
  · rw [List.getElem?_eq_none (by rw [length_contents h]; omega)]

/-! ## Taking out -/

theorem sound_advance {r : Ring} (h : r.Sound) {n : Nat} (hn : n ≤ r.size) :
    (r.advance n).Sound := by
  unfold advance
  split
  · exact h
  · have hpos : 0 < r.storage.size := by have := h.size_le; omega
    refine ⟨le_trans (Nat.sub_le _ _) h.size_le, h.storage_le, ?_⟩
    dsimp only
    split
    · exact Or.inl rfl
    · exact Or.inr (Nat.mod_lt _ hpos)

/-- Forgetting the `n` oldest bytes drops them from the front, also where the head starts again at
the front of the storage. -/
theorem contents_advance {r : Ring} (h : r.Sound) {n : Nat} (hn : n ≤ r.size) :
    (r.advance n).contents = r.contents.drop n := by
  have hs := sound_advance h hn
  rw [contents_eq hs, contents_eq h]
  unfold advance
  split
  · simp [‹n = 0›]
  · dsimp only
    have hle : n ≤ (r.storage.toList.rotate r.head).length := by
      rw [List.length_rotate, Array.length_toList]; exact le_trans hn h.size_le
    rw [List.drop_take]
    split
    · simp [‹r.size - n = 0›]
    · rw [← Array.length_toList, List.rotate_mod, ← List.rotate_rotate,
        List.rotate_eq_drop_append_take hle, List.take_append_of_le_length]
      rw [List.length_drop, List.length_rotate, Array.length_toList]
      have := h.size_le
      omega

@[simp] theorem size_advance (r : Ring) (n : Nat) : (r.advance n).size = r.size - n := by
  unfold advance
  split <;> simp_all

@[simp] theorem capacity_advance (r : Ring) (n : Nat) : (r.advance n).capacity = r.capacity := by
  unfold advance
  split <;> rfl

/-! ## Putting in -/

@[simp] theorem size_overwrite (storage : Array UInt8) (start : Nat) (bytes : Bytes) :
    (overwrite storage start bytes).size = storage.size := by
  induction bytes generalizing storage start with
  | nil => rfl
  | cons b bs ih => rw [overwrite, ih, Array.size_setIfInBounds]

/-- Overwriting changes the places from `start` on, as many as there are bytes, and no others. -/
theorem getElem?_overwrite (storage : Array UInt8) (start : Nat) (bytes : Bytes) (j : Nat)
    (hfit : start + bytes.length ≤ storage.size) :
    (overwrite storage start bytes)[j]? =
      if start ≤ j ∧ j < start + bytes.length then bytes[j - start]? else storage[j]? := by
  induction bytes generalizing storage start with
  | nil =>
    have hnone : ¬ (start ≤ j ∧ j < start + ([] : Bytes).length) := by
      rw [List.length_nil]
      omega
    rw [if_neg hnone, overwrite]
  | cons b bs ih =>
    simp only [List.length_cons] at hfit ⊢
    rw [overwrite, ih _ _ (by rw [Array.size_setIfInBounds]; omega),
      Array.getElem?_setIfInBounds]
    rcases Nat.lt_trichotomy j start with h | h | h
    · rw [if_neg (by omega), if_neg (by omega), if_neg (by omega)]
    · subst h
      rw [if_neg (by omega), if_pos rfl, if_pos (by omega), if_pos (by omega)]
      simp
    · obtain ⟨k, rfl⟩ : ∃ k, j = start + 1 + k := ⟨j - (start + 1), by omega⟩
      rw [if_neg (show start ≠ start + 1 + k by omega)]
      have hk : start + 1 + k - start = k + 1 := by omega
      rw [hk, Nat.add_sub_cancel_left, List.getElem?_cons_succ]
      congr 1
      simp only [eq_iff_iff]
      omega

theorem le_grownSize (r : Ring) {required : Nat} (h : required ≤ r.capacity) :
    required ≤ r.grownSize required := by
  unfold grownSize
  omega

theorem sound_grow {r : Ring} {required : Nat} (hsize : r.size ≤ required)
    (hcap : required ≤ r.capacity) : (r.grow required).Sound := by
  have := r.le_grownSize hcap
  refine ⟨?_, ?_, Or.inl rfl⟩
  · simp only [grow, size_overwrite, Array.size_replicate]
    omega
  · simp only [grow, size_overwrite, Array.size_replicate]
    exact Nat.min_le_right _ _

/-- Growing moves the bytes to the front of the new storage and keeps them all. -/
theorem contents_grow {r : Ring} (h : r.Sound) {required : Nat} (hsize : r.size ≤ required)
    (hcap : required ≤ r.capacity) : (r.grow required).contents = r.contents := by
  have hs := sound_grow hsize hcap
  have hlen := length_contents h
  apply List.ext_getElem?
  intro i
  rcases Nat.lt_or_ge i r.size with hi | hi
  · have hroom : i < (r.grow required).storage.size := Nat.lt_of_lt_of_le hi hs.size_le
    rw [getElem?_contents hs hi]
    simp only [grow] at hroom ⊢
    rw [Nat.zero_add, Nat.mod_eq_of_lt hroom, getElem?_overwrite, if_pos (by omega), Nat.sub_zero]
    have := r.le_grownSize hcap
    rw [Array.size_replicate]
    omega
  · rw [List.getElem?_eq_none (by rw [length_contents hs]; exact hi),
      List.getElem?_eq_none (by omega)]

theorem sound_append {r : Ring} (h : r.Sound) {data : Bytes}
    (hroom : r.size + data.length ≤ r.storage.size) : (r.append data).Sound := by
  constructor
  · simpa [append] using hroom
  · simpa [append] using h.storage_le
  · simpa [append] using h.head_le

/-- What stands at each place of the storage behind an append, seen from the head: the bytes held
stay, and the new ones stand behind them in order, around the end of the storage. -/
theorem getElem?_storage_append {r : Ring} (h : r.Sound) {data : Bytes} (hd : data ≠ [])
    (hroom : r.size + data.length ≤ r.storage.size) {i : Nat} (hi : i < r.size + data.length) :
    (r.append data).storage[(r.head + i) % r.storage.size]? =
      if i < r.size then r.storage[(r.head + i) % r.storage.size]? else data[i - r.size]? := by
  have hpos : 0 < data.length := List.length_pos_iff.mpr hd
  have hh : r.head < r.storage.size := by rcases h.head_le with h0 | h0 <;> omega
  have htail := place_eq hh (show r.size < r.storage.size by omega)
  have hplace := place_eq hh (show i < r.storage.size by omega)
  simp only [append]
  generalize (r.head + r.size) % r.storage.size = tail at *
  generalize (r.head + i) % r.storage.size = place at *
  have hlen : (data.take (min data.length (r.storage.size - tail))).length =
      min data.length (r.storage.size - tail) := by rw [List.length_take]; omega
  rw [getElem?_overwrite _ _ _ _ (by rw [size_overwrite, List.length_drop]; omega),
    getElem?_overwrite _ _ _ _ (by rw [hlen]; omega), hlen, List.length_drop, List.getElem?_drop,
    Nat.zero_add, Nat.sub_zero]
  -- The place holds a byte that was there, or one of the first slice written, or of the second.
  rcases Nat.lt_or_ge i r.size with hheld | hnew
  · rw [if_neg (by omega), if_neg (by omega), if_pos hheld]
  · rw [if_neg (show ¬ i < r.size by omega)]
    rcases Nat.lt_or_ge (i - r.size) (r.storage.size - tail) with hfirst | hsecond
    · rw [if_neg (by omega), if_pos (by omega), List.getElem?_take_of_lt (by omega)]
      congr 1
      omega
    · rw [if_pos (by omega)]
      congr 1
      omega

/-- Appending lays the data behind what is held. -/
theorem contents_append {r : Ring} (h : r.Sound) {data : Bytes} (hd : data ≠ [])
    (hroom : r.size + data.length ≤ r.storage.size) :
    (r.append data).contents = r.contents ++ data := by
  have hs := sound_append h hroom
  have hlen := length_contents h
  have hstorage : (r.append data).storage.size = r.storage.size := by simp [append]
  apply List.ext_getElem?
  intro i
  rcases Nat.lt_or_ge i (r.size + data.length) with hi | hi
  · rw [getElem?_contents hs hi, hstorage]
    show (r.append data).storage[(r.head + i) % r.storage.size]? = _
    rw [getElem?_storage_append h hd hroom hi, List.getElem?_append, hlen]
    split
    · rw [getElem?_contents h ‹_›]
    · rfl
  · rw [List.getElem?_eq_none (by rw [length_contents hs]; exact hi),
      List.getElem?_eq_none (by rw [List.length_append]; omega)]

end SerialLink.Ring
