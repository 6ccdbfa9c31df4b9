-- Bytes in rows. Each row begins where the one before it ended, and all but
-- the last one are full.
import SerialLink.Monitor.Payload

namespace SerialLink.Monitor

variable {width : Nat} {bytes : Bytes}

theorem rows_nil (width : Nat) : rows width [] = [] := by
  unfold rows
  simp

theorem rows_of_ne_nil (hw : 1 ≤ width) (hb : bytes ≠ []) :
    rows width bytes = bytes.take width :: rows width (bytes.drop width) := by
  have hno : ¬ (width = 0 ∨ bytes = []) := by
    rintro (h | h)
    · omega
    · exact hb h
  rw [rows, if_neg hno]

theorem rows_of_le (hw : 1 ≤ width) (hb : bytes ≠ []) (hlen : bytes.length ≤ width) :
    rows width bytes = [bytes] := by
  rw [rows_of_ne_nil hw hb, List.take_of_length_le hlen, List.drop_of_length_le hlen, rows_nil]

theorem eq_nil_of_no_row (hw : 1 ≤ width) (h : width = 0 ∨ bytes = []) : bytes = [] := by
  rcases h with h | h
  · omega
  · exact h

theorem take_ne_nil (hw : 1 ≤ width) (hb : bytes ≠ []) : bytes.take width ≠ [] :=
  fun h => hb (eq_nil_of_no_row hw (List.take_eq_nil_iff.mp h))

theorem flatten_rows (hw : 1 ≤ width) (bytes : Bytes) : (rows width bytes).flatten = bytes := by
  induction bytes using rows.induct width with
  | case1 bytes h =>
    rw [eq_nil_of_no_row hw h, rows_nil]
    rfl
  | case2 bytes h ih =>
    have hb : bytes ≠ [] := fun he => h (Or.inr he)
    rw [rows_of_ne_nil hw hb, List.flatten_cons, ih, List.take_append_drop]

/-- Every row begins at a multiple of the width. -/
theorem getElem?_rows (hw : 1 ≤ width) (bytes : Bytes) (i : Nat) :
    (rows width bytes)[i]? =
      if width * i < bytes.length then some ((bytes.drop (width * i)).take width) else none := by
  induction bytes using rows.induct width generalizing i with
  | case1 bytes h =>
    rw [eq_nil_of_no_row hw h, rows_nil]
    rfl
  | case2 bytes h ih =>
    have hb : bytes ≠ [] := fun he => h (Or.inr he)
    rw [rows_of_ne_nil hw hb]
    cases i with
    | zero => simp [List.length_pos_iff.mpr hb]
    | succ i =>
      have hplace : width * (i + 1) = width + width * i := by rw [Nat.mul_succ, Nat.add_comm]
      have hmore : width * i < (bytes.drop width).length ↔ width * (i + 1) < bytes.length := by
        rw [List.length_drop, hplace]
        omega
      rw [List.getElem?_cons_succ, ih, List.drop_drop, hplace]
      simp only [hmore, hplace]

/-- As many rows as it takes. -/
theorem length_rows (hw : 1 ≤ width) (bytes : Bytes) :
    (rows width bytes).length = (bytes.length + (width - 1)) / width := by
  induction bytes using rows.induct width with
  | case1 bytes h =>
    rw [eq_nil_of_no_row hw h, rows_nil, List.length_nil, List.length_nil, Nat.zero_add,
      Nat.div_eq_of_lt (by omega)]
  | case2 bytes h ih =>
    have hb : bytes ≠ [] := fun he => h (Or.inr he)
    have hpos := List.length_pos_iff.mpr hb
    rw [rows_of_ne_nil hw hb, List.length_cons, ih, List.length_drop]
    by_cases hlong : width ≤ bytes.length
    · have hone : bytes.length + (width - 1) = bytes.length - width + (width - 1) + width := by
        omega
      rw [hone, Nat.add_div_right _ (by omega)]
    · -- The last row is short.
      have hshort : bytes.length + (width - 1) = bytes.length - 1 + width := by omega
      rw [hshort, Nat.add_div_right _ (by omega), Nat.div_eq_of_lt (a := bytes.length - 1) (by omega),
        Nat.div_eq_of_lt (by omega)]

/-- No row is empty or too long, and only the last one may be too short. -/
theorem length_of_row (hw : 1 ≤ width) {i : Nat} {row : Bytes}
    (hrow : (rows width bytes)[i]? = some row) :
    1 ≤ row.length ∧ row.length ≤ width ∧
      (i + 1 < (rows width bytes).length → row.length = width) := by
  rw [getElem?_rows hw] at hrow
  split at hrow
  · rename_i hi
    cases hrow
    rw [List.length_take, List.length_drop]
    refine ⟨by omega, by omega, fun hnext => ?_⟩
    -- The next row begins inside the bytes.
    have hin : width * (i + 1) < bytes.length := by
      have hthere := List.getElem?_eq_getElem hnext
      rw [getElem?_rows hw] at hthere
      split at hthere
      · assumption
      · cases hthere
    rw [Nat.mul_succ] at hin
    omega
  · cases hrow

end SerialLink.Monitor
