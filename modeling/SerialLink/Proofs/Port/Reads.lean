-- One read of a scripted port, case by case, and how many reads a script is
-- good for.
import SerialLink.Port.Scripted

namespace SerialLink.ScriptedPort

/-! ## What a read does -/

/-- What a read of `n` bytes comes back with, and the port behind it. -/
inductive Reads (p : ScriptedPort) (n : Nat) : Option (Except PortError Bytes) → ScriptedPort → Prop
  | refused (closed : p.closed = true) : Reads p n (some (.error .closed)) p
  | waits (opened : p.closed = false) (empty : p.script = []) : Reads p n none p
  | failed {e : PortError} {rest : List (Except PortError Bytes)} (opened : p.closed = false)
    (script : p.script = .error e :: rest) : Reads p n (some (.error e)) { p with script := rest }
  | whole {chunk : Bytes} {rest : List (Except PortError Bytes)} (opened : p.closed = false)
    (script : p.script = .ok chunk :: rest) (fits : chunk.length ≤ n) :
    Reads p n (some (.ok chunk)) { p with script := rest }
  | part {chunk : Bytes} {rest : List (Except PortError Bytes)} (opened : p.closed = false)
    (script : p.script = .ok chunk :: rest) (long : n < chunk.length) :
    Reads p n (some (.ok (chunk.take n))) { p with script := .ok (chunk.drop n) :: rest }

theorem reads_read (p : ScriptedPort) (n : Nat) : Reads p n (p.read n).1 (p.read n).2 := by
  unfold read
  by_cases hc : p.closed = true
  · rw [if_pos hc]
    exact .refused hc
  · rw [if_neg hc]
    have hopen : p.closed = false := eq_false_of_ne_true hc
    split
    · exact .waits hopen ‹_›
    · exact .failed hopen ‹_›
    · rename_i chunk rest hscript
      rcases Nat.lt_or_ge n chunk.length with hlong | hfits
      · have hleft : (chunk.drop n).isEmpty = false := by
          rw [List.isEmpty_eq_false_iff, ← List.length_pos_iff, List.length_drop]
          omega
        dsimp only
        rw [hleft]
        exact .part hopen hscript hlong
      · dsimp only
        rw [List.drop_of_length_le hfits, List.take_of_length_le hfits]
        exact .whole hopen hscript hfits

theorem read_of_empty {p : ScriptedPort} (hopen : p.closed = false) (hempty : p.script = [])
    (n : Nat) : p.read n = (none, p) := by
  unfold read
  rw [hopen, hempty]
  rfl

/-- A read is only waited for while an open port has no script. -/
theorem read_eq_none_iff {p : ScriptedPort} {n : Nat} :
    (p.read n).1 = none ↔ p.closed = false ∧ p.script = [] := by
  constructor
  · intro h
    have hreads := reads_read p n
    rw [h] at hreads
    generalize (p.read n).2 = p' at hreads
    cases hreads with
    | waits opened empty => exact ⟨opened, empty⟩
  · rintro ⟨hopen, hempty⟩
    rw [read_of_empty hopen hempty]

/-- A read neither closes nor opens the port. -/
theorem read_closed (p : ScriptedPort) (n : Nat) : (p.read n).2.closed = p.closed := by
  have hreads := reads_read p n
  generalize (p.read n).1 = a at hreads
  generalize (p.read n).2 = p' at hreads
  cases hreads <;> rfl

/-! ## How long a script lasts -/

theorem scriptReads_cons (entry : Except PortError Bytes) (rest : List (Except PortError Bytes)) :
    scriptReads (entry :: rest) = entryReads entry + scriptReads rest := rfl

theorem scriptReads_eq_zero {script : List (Except PortError Bytes)} :
    scriptReads script = 0 ↔ script = [] := by
  constructor
  · intro h
    rcases script with _ | ⟨_ | _, _⟩
    · rfl
    all_goals
      rw [scriptReads_cons, entryReads] at h
      omega
  · rintro rfl
    rfl

/-- Each read of an open port uses up some of the script. -/
theorem scriptReads_read {n : Nat} (hn : 1 ≤ n) {p : ScriptedPort} {a : Except PortError Bytes}
    (h : (p.read n).1 = some a) :
    scriptReads (p.read n).2.script + (if p.closed then 0 else 1) ≤ scriptReads p.script := by
  have hreads := reads_read p n
  rw [h] at hreads
  generalize (p.read n).2 = p' at hreads
  cases hreads with
  | refused closed => simp [closed]
  | failed opened script | whole opened script =>
    rw [opened, script, scriptReads_cons, entryReads]
    simp only [Bool.false_eq_true, if_false]
    omega
  | part opened script long =>
    rw [opened, script, scriptReads_cons, scriptReads_cons, entryReads, entryReads,
      List.length_drop]
    simp only [Bool.false_eq_true, if_false]
    omega

theorem scriptReads_read_le {n : Nat} (hn : 1 ≤ n) {p : ScriptedPort} (hopen : p.closed = false) :
    scriptReads (p.read n).2.script ≤ scriptReads p.script - 1 := by
  rcases hanswer : (p.read n).1 with _ | a
  · obtain ⟨_, hempty⟩ := read_eq_none_iff.mp hanswer
    rw [read_of_empty hopen hempty, hempty]
    exact Nat.le_refl _
  · have huse := scriptReads_read hn hanswer
    rw [hopen] at huse
    simp only [Bool.false_eq_true, if_false] at huse
    omega

end SerialLink.ScriptedPort
