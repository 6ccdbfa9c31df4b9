-- Entries under keys. What was put under a key is found there, the other keys
-- are as they were, and no key stands twice.
import Mathlib.Data.List.Nodup
import SerialLink.Driver

namespace SerialLink

section Entries

variable {κ β : Type} [DecidableEq κ] (key other : κ) (value : β) (entries : List (κ × β))

theorem valueAt?_cons (entry : κ × β) :
    valueAt? other (entry :: entries) =
      if entry.1 = other then some entry.2 else valueAt? other entries := by
  unfold valueAt?
  by_cases h : entry.1 = other <;> simp [h]

/-- What was put under a key is found there, and the other keys are as they were. -/
theorem valueAt?_putEntry :
    valueAt? other (putEntry key value entries) =
      if key = other then some value else valueAt? other entries := by
  induction entries with
  | nil =>
    rw [putEntry, valueAt?_cons]
  | cons entry rest ih =>
    obtain ⟨k, v⟩ := entry
    rw [putEntry, valueAt?_cons]
    split
    · rename_i hk
      subst hk
      rw [valueAt?_cons]
      split <;> rfl
    · rename_i hk
      rw [valueAt?_cons, ih]
      by_cases hother : key = other
      · subst hother
        simp [hk]
      · simp [hother]

theorem isEmpty_putEntry : (putEntry key value entries).isEmpty = false := by
  cases entries with
  | nil => rfl
  | cons entry rest =>
    rw [putEntry]
    split <;> rfl

theorem keys_putEntry :
    (putEntry key value entries).map (·.1) =
      if key ∈ entries.map (·.1) then entries.map (·.1) else entries.map (·.1) ++ [key] := by
  induction entries with
  | nil => rfl
  | cons entry rest ih =>
    obtain ⟨k, v⟩ := entry
    rw [putEntry]
    by_cases hk : k = key
    · simp [hk]
    · rw [if_neg hk, List.map_cons, ih]
      simp only [List.map_cons, List.mem_cons, Ne.symm hk, false_or]
      split <;> rfl

/-- No key comes to stand twice. -/
theorem nodup_putEntry (h : (entries.map (·.1)).Nodup) :
    ((putEntry key value entries).map (·.1)).Nodup := by
  rw [keys_putEntry]
  split
  · exact h
  · rename_i hnew
    exact List.nodup_append_comm.mp (List.nodup_cons.mpr ⟨hnew, h⟩)

theorem mem_keys_putEntry :
    other ∈ (putEntry key value entries).map (·.1) ↔
      other = key ∨ other ∈ entries.map (·.1) := by
  rw [keys_putEntry]
  split
  · rename_i hmem
    constructor
    · exact Or.inr
    · rintro (rfl | h)
      · exact hmem
      · exact h
  · rw [List.mem_append, List.mem_singleton, or_comm]

end Entries

end SerialLink
