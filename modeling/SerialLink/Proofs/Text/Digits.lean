-- Digits written and read back. A number is written without a leading zero, so
-- its digits tell it in one way only.
import Mathlib.Data.List.Induction
import SerialLink.Text.Decimal
import SerialLink.Text.Hexadecimal

namespace SerialLink.Text

/-- The number that digits mean in a radix. -/
def valueOf (radix : Nat) (digits : List Nat) : Nat :=
  digits.foldl (fun n d => radix * n + d) 0

/-- These are the digits of a number in a radix, as it is written. -/
structure Spells (radix n : Nat) (digits : List Nat) : Prop where
  text : Nat.toDigits radix n = digits.map Nat.digitChar
  below : ∀ d ∈ digits, d < radix
  value : valueOf radix digits = n
  any : digits ≠ []
  zero : n = 0 → digits = [0]
  /-- Only zero begins with a zero. -/
  leading : digits.head? = some 0 → digits = [0]

theorem valueOf_snoc (radix : Nat) (digits : List Nat) (d : Nat) :
    valueOf radix (digits ++ [d]) = radix * valueOf radix digits + d := by
  simp [valueOf, List.foldl_append]

theorem spells_digit {radix d : Nat} (h : d < radix) : Spells radix d [d] := by
  refine ⟨Nat.toDigits_of_lt_base h, by simpa using h, by simp [valueOf], by simp, ?_, ?_⟩
  · exact fun hd => by rw [hd]
  · exact fun hd => by rw [Option.some.inj hd]

theorem Spells.more {radix n d : Nat} {digits : List Nat} (hs : Spells radix n digits)
    (hradix : 1 < radix) (hn : 0 < n) (hd : d < radix) :
    Spells radix (radix * n + d) (digits ++ [d]) := by
  have hpos : 0 < radix * n := Nat.mul_pos (by omega) hn
  refine ⟨?_, ?_, ?_, by simp, by omega, ?_⟩
  · rw [← Nat.toDigits_append_toDigits hradix hn hd, hs.text, Nat.toDigits_of_lt_base hd,
      List.map_append]
    rfl
  · intro e he
    rcases List.mem_append.mp he with he | he
    · exact hs.below e he
    · exact List.mem_singleton.mp he ▸ hd
  · rw [valueOf_snoc, hs.value]
  · intro hhead
    -- A number that goes on is not zero, so it does not begin with a zero.
    have hfirst : digits.head? = some 0 := by
      obtain ⟨e, rest, rfl⟩ := List.exists_cons_of_ne_nil hs.any
      exact hhead
    have hzero : n = 0 := by rw [← hs.value, hs.leading hfirst]; rfl
    omega

/-- Every number has its digits. -/
theorem spells {radix : Nat} (hradix : 1 < radix) (n : Nat) : ∃ digits, Spells radix n digits := by
  induction n using Nat.strongRecOn with
  | ind n ih =>
    by_cases hn : n < radix
    · exact ⟨[n], spells_digit hn⟩
    · have hq : 0 < n / radix := Nat.div_pos (Nat.le_of_not_lt hn) (by omega)
      obtain ⟨digits, hs⟩ := ih (n / radix) (Nat.div_lt_self (by omega) hradix)
      have hmore := hs.more hradix hq (Nat.mod_lt n (by omega))
      rw [Nat.div_add_mod] at hmore
      exact ⟨_, hmore⟩

/-! ## Digits one by one -/

theorem decimal_digitValue {d : Nat} (h : d < 10) :
    Decimal.digitValue? (Nat.digitChar d) = some d := by
  have hall : ∀ d < 10, Decimal.digitValue? (Nat.digitChar d) = some d := by decide
  exact hall d h

theorem hexadecimal_digitValue {d : Nat} (h : d < 16) :
    Hexadecimal.digitValue? (Nat.digitChar d) = some d := by
  have hall : ∀ d < 16, Hexadecimal.digitValue? (Nat.digitChar d) = some d := by decide
  exact hall d h

end SerialLink.Text
