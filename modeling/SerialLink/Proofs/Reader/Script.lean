-- A reader passes its script through. How long its threads go on, and what the
-- listener and the script have between them at any time.
import SerialLink.Proofs.Reader.Runs

namespace SerialLink

namespace Reader

open Monitor (rows)

/-! ## How long a thread goes on -/

/-- Steps that a thread is away from its next read or from its end. -/
def Point.ahead : Point Unit → Nat
  | .received _ => 8
  | .delivering .. => 7
  | .checking => 6
  | .reading => 5
  | .failed _ => 4
  | .reporting _ => 3
  | .telling .. => 2
  | .leaving => 1

/-- The thread may come to another read. -/
def Point.mayRead : Point Unit → Bool
  | .checking | .reading | .received _ | .delivering .. => true
  | _ => false

/-- Reads that a run has made and may still make while nothing is scripted. -/
def Run.reads (r : Run) (script : List Item) : Nat :=
  r.answers.length +
    if (r.point.map Point.mayRead).getD false then ScriptedPort.scriptReads script + 1 else 0

def Move.pushes : Move → Bool
  | .push _ | .pushError _ => true
  | _ => false

/-- The run is over, or its thread waits in a read of an open port without a script. -/
def Run.Rests (r : Run) (p : ScriptedPort) : Prop :=
  r.point = none ∨ r.point = some .reading ∧ p.closed = false ∧ p.script = []

/-- Only in a read a thread has to wait. -/
theorem step_waits {reader : Reader Unit} {answer : Nat → Option Item} {point : Point Unit}
    (h : reader.step answer point = none) : point = .reading ∧ answer reader.size = none := by
  cases point <;> simp only [Reader.step, reduceCtorEq] at h
  case reading =>
    refine ⟨rfl, ?_⟩
    rcases ha : answer reader.size with _ | e | _ | ⟨b, bytes⟩
    · rfl
    all_goals simp [ha] at h
  case received bytes => split at h <;> cases h
  case reporting e => split at h <;> cases h

/-- A step that is no read takes a thread closer to its next read or its end. -/
theorem ahead_step {reader reader' : Reader Unit} {answer : Nat → Option Item}
    {point : Point Unit} {next : Next Unit}
    (h : reader.step answer point = some (next, reader')) (hp : point ≠ .reading) (r : Run) :
    ((r.on next).point.map Point.ahead).getD 0 < point.ahead ∧
      (((r.on next).point.map Point.mayRead).getD false = true → point.mayRead = true) := by
  cases point <;> simp only [Reader.step, Option.some.injEq, Prod.mk.injEq] at h
  case reading => exact absurd rfl hp
  case checking =>
    obtain ⟨rfl, _⟩ := h
    split <;> simp [Run.on, Point.ahead, Point.mayRead]
  case received bytes =>
    split at h <;> cases h <;> simp [Run.on, Point.ahead, Point.mayRead]
  case failed e =>
    obtain ⟨rfl, _⟩ := h
    split <;> simp [Run.on, Point.ahead, Point.mayRead]
  case reporting e =>
    split at h <;> cases h <;> simp [Run.on, Point.ahead, Point.mayRead]
  all_goals
    obtain ⟨rfl, _⟩ := h
    simp [Run.on, Point.ahead, Point.mayRead]

namespace History

/-- Steps that run `n` may still take before it rests. -/
def stepsLeft (h : History) (n : Nat) : Nat :=
  4 * ScriptedPort.scriptReads h.port.script +
    ((h.runs[n]?.bind (·.point)).map Point.ahead).getD 0

section Ends

variable {n : Nat} {h : History} {r : Run} {point : Point Unit} {next : Next Unit}
  {reader : Reader Unit}

theorem runs_stepped (hr : h.runs[n]? = some r) (point : Point Unit) (next : Next Unit)
    (reader : Reader Unit) :
    (h.stepped n point next reader).runs[n]? =
      some { r.on next with answers := r.answers ++ (h.answer point).toList } := by
  unfold stepped
  simp [hr]

theorem progress_of_read (hs : 1 ≤ h.reader.size) (hr : h.runs[n]? = some r)
    (hp : r.point = some .reading)
    (hstep : h.reader.step (fun k => (h.port.read k).1) .reading = some (next, reader)) :
    ∃ r', (h.stepped n .reading next reader).runs[n]? = some r' ∧
      r'.reads (h.stepped n .reading next reader).port.script ≤ r.reads h.port.script ∧
      (h.stepped n .reading next reader).stepsLeft n < h.stepsLeft n := by
  obtain ⟨a, ha, rfl, rfl⟩ := History.step_reading hstep
  have hanswer : h.answer .reading = some a := ha
  have huse := ScriptedPort.scriptReads_read hs ha
  have hrun := runs_stepped hr .reading (.goto (behind a)) h.reader
  have hport : (h.stepped n .reading (.goto (behind a)) h.reader).port =
      (h.port.read h.reader.size).2 := rfl
  refine ⟨_, hrun, ?_⟩
  unfold stepsLeft Run.reads
  rw [hport, hrun, hr, hanswer]
  simp only [hp, Run.on, Option.toList_some, Option.bind_some, Option.map_some, Option.getD_some,
    List.length_append, List.length_singleton, Point.mayRead, Point.ahead, if_true]
  by_cases hc : h.port.closed = true
  · have hclosed : a = .error .closed := by
      simpa [ScriptedPort.read, hc] using ha.symm
    subst hclosed
    rw [if_pos hc] at huse
    simp only [behind, Bool.false_eq_true, if_false]
    omega
  · rw [if_neg hc] at huse
    rcases a with e | _ | ⟨b, bytes⟩ <;>
      simp only [behind, Bool.false_eq_true, if_false, if_true] <;>
      omega

/-- A thread that does not rest goes on, and uses up reads and steps. -/
theorem progress (hs : 1 ≤ h.reader.size) (hr : h.runs[n]? = some r) :
    r.Rests h.port ∧ h.extend (.step n) = h ∨
      ∃ r', (h.extend (.step n)).runs[n]? = some r' ∧
        r'.reads (h.extend (.step n)).port.script ≤ r.reads h.port.script ∧
        (h.extend (.step n)).stepsLeft n < h.stepsLeft n := by
  rcases hp : r.point with _ | point
  · exact Or.inl ⟨Or.inl hp, by simp [extend, hr, hp]⟩
  · rcases hstep : h.reader.step (fun k => (h.port.read k).1) point with _ | ⟨next, reader⟩
    · obtain ⟨rfl, hwait⟩ := step_waits hstep
      exact Or.inl ⟨Or.inr ⟨hp, ScriptedPort.read_eq_none_iff.mp hwait⟩, by simp [extend, hr, hp, hstep]⟩
    · right
      have hext : h.extend (.step n) = h.stepped n point next reader := by
        simp [extend, hr, hp, hstep]
      rw [hext]
      by_cases hreading : point = .reading
      · subst hreading
        exact progress_of_read hs hr hp hstep
      · have hrun := runs_stepped hr point next reader
        obtain ⟨hahead, hmay⟩ := ahead_step hstep hreading r
        have hanswer : h.answer point = none := if_neg hreading
        have hport : (h.stepped n point next reader).port = h.port := if_neg hreading
        refine ⟨_, hrun, ?_⟩
        unfold stepsLeft Run.reads
        rw [hport, hrun, hr, hanswer]
        simp only [hp, Option.toList_none, List.append_nil, Option.bind_some, Option.map_some,
          Option.getD_some] at hahead hmay ⊢
        refine ⟨?_, by omega⟩
        by_cases hm : ((r.on next).point.map Point.mayRead).getD false = true
        · rewrite [if_pos hm, if_pos (hmay hm)]
          exact Nat.le_refl _
        · rw [if_neg hm]
          omega

/-- A thread left to itself comes to rest. -/
theorem comes_to_rest {size : Nat} (hs : 1 ≤ size) (hg : Good size h) (hr : h.runs[n]? = some r) :
    ∃ k r', (h.after (List.replicate k (.step n))).runs[n]? = some r' ∧
      r'.Rests (h.after (List.replicate k (.step n))).port := by
  generalize hm : h.stepsLeft n = m
  induction m using Nat.strongRecOn generalizing h r with
  | ind m ih =>
    rcases progress (hg.size_eq ▸ hs) hr with ⟨hrest, _⟩ | ⟨r', hr', _, hlt⟩
    · exact ⟨0, r, hr, hrest⟩
    · obtain ⟨k, r'', hrun, hrest⟩ := ih _ (hm ▸ hlt) (hg.extend hs (.step n)) hr' rfl
      exact ⟨k + 1, r'', hrun, hrest⟩

/-- The step of another thread may use up some of the script. -/
theorem step_of_other {k : Nat} (hs : 1 ≤ h.reader.size) (hk : k ≠ n) :
    (h.extend (.step k)).runs[n]? = h.runs[n]? ∧
      ScriptedPort.scriptReads (h.extend (.step k)).port.script ≤
        ScriptedPort.scriptReads h.port.script := by
  unfold extend
  dsimp only
  split
  · exact ⟨rfl, Nat.le_refl _⟩
  · rename_i point _
    split
    · exact ⟨rfl, Nat.le_refl _⟩
    · rename_i next reader hstep
      unfold stepped
      refine ⟨by simp [hk], ?_⟩
      dsimp only
      by_cases hreading : point = .reading
      · subst hreading
        obtain ⟨a, ha, _, _⟩ := History.step_reading hstep
        have huse := ScriptedPort.scriptReads_read hs ha
        rw [if_pos rfl]
        omega
      · rewrite [if_neg hreading]
        exact Nat.le_refl _

theorem reads_mono {script script' : List Item}
    (h : ScriptedPort.scriptReads script' ≤ ScriptedPort.scriptReads script) (r : Run) :
    r.reads script' ≤ r.reads script := by
  unfold Run.reads
  split <;> omega

/-- While nothing is scripted, no move lets a run make more reads than the script is good for. -/
theorem reads_extend (hs : 1 ≤ h.reader.size) (hr : h.runs[n]? = some r) {move : Move}
    (hm : move.pushes = false) :
    ∃ r', (h.extend move).runs[n]? = some r' ∧
      r'.reads (h.extend move).port.script ≤ r.reads h.port.script := by
  have hkeep : ∃ r', h.runs[n]? = some r' ∧ r'.reads h.port.script ≤ r.reads h.port.script :=
    ⟨r, hr, Nat.le_refl _⟩
  cases move with
  | push | pushError => cases hm
  | close | reopen => exact hkeep
  | start made =>
    unfold extend
    dsimp only
    split
    · refine ⟨r, ?_, Nat.le_refl _⟩
      rw [List.getElem?_append_left (List.getElem?_eq_some_iff.mp hr).1]
      exact hr
    · exact hkeep
  | stop =>
    refine ⟨r.ask, ?_, Nat.le_refl _⟩
    unfold extend
    rw [List.getElem?_map, hr]
    rfl
  | step k =>
    by_cases hk : k = n
    · subst hk
      rcases progress hs hr with ⟨_, hsame⟩ | ⟨r', hr', hle, _⟩
      · rw [hsame]
        exact hkeep
      · exact ⟨r', hr', hle⟩
    · obtain ⟨hsame, hle⟩ := step_of_other hs hk
      exact ⟨r, hsame.trans hr, reads_mono hle r⟩

theorem reads_after {size : Nat} (hs : 1 ≤ size) (hg : Good size h) (hr : h.runs[n]? = some r)
    {moves : List Move} (hm : ∀ move ∈ moves, move.pushes = false) :
    ∃ r', (h.after moves).runs[n]? = some r' ∧
      r'.reads (h.after moves).port.script ≤ r.reads h.port.script := by
  induction moves generalizing h r with
  | nil => exact ⟨r, hr, Nat.le_refl _⟩
  | cons move moves ih =>
    obtain ⟨r₁, hr₁, hle₁⟩ := reads_extend (hg.size_eq ▸ hs) hr (hm move (List.mem_cons_self ..))
    obtain ⟨r₂, hr₂, hle₂⟩ := ih (hg.extend hs move) hr₁
      (fun m hmem => hm m (List.mem_cons_of_mem _ hmem))
    exact ⟨r₂, hr₂, Nat.le_trans hle₂ hle₁⟩

end Ends

/-! ## The law -/

/-- What a reader of `size` bytes at a time has passed on of its script. -/
structure PassedOn (size : Nat) (h : History) : Prop where
  /-- The listener was given the rows of what was scripted, in order, as far as it was read. -/
  slices : h.given <+: h.pushed.flatMap fun item => rows size (bytesOf item)
  /-- What was given, what a thread has in hand between its read and the callback, and what is
  still scripted are together what was scripted. -/
  bytes : h.given.flatten ++ h.hand.flatten ++ h.port.script.flatMap bytesOf =
    h.pushed.flatMap bytesOf
  /-- A run goes on where the script was left, behind an error that ended the run before it. -/
  order : h.taken.flatMap (cut size) ++ h.port.script.flatMap (cut size) =
    h.pushed.flatMap (cut size)
  /-- A run reads nothing behind its first error. -/
  last : ∀ r ∈ h.runs, ∀ a ∈ r.answers.dropLast, ∃ bytes, a = .ok bytes
  /-- Behind that error its thread is on the way to its end. -/
  leaves : ∀ r ∈ h.runs, r.error?.isSome → ∀ point, r.point = some point → point.mayRead = false
  /-- A run that is over was asked to stop, or told once of the error that it met. -/
  ended : ∀ r ∈ h.runs, r.point = none →
    (r.asked = true ∨ r.error?.isSome) ∧ r.told = if r.asked then [] else r.error?.toList
  /-- Until then it told of that error at most. -/
  early : ∀ r ∈ h.runs, r.told <+: r.error?.toList
  alone : ∀ r ∈ h.runs.dropLast, r.point = none
  stopped : h.reader.state = .stopped ↔ ∀ r ∈ h.runs, r.point = none

theorem error_of_clean {r : Run} (h : r.Clean) : r.error? = none := by
  unfold Run.error?
  split
  · rename_i e he
    obtain ⟨s, hs⟩ := h _ (List.mem_of_getLast? he)
    cases hs
  · rfl

theorem error_of_met {r : Run} {e : PortError} (h : r.Met e) : r.error? = some e := by
  obtain ⟨before, _, hr⟩ := h
  unfold Run.error?
  rw [hr, List.getLast?_concat]

/-- A thread that may still read has met no error. -/
theorem clean_of_mayRead {state : ReaderState} {r : Run} {point : Point Unit}
    (h : r.Lawful state) (hp : r.point = some point) (hm : point.mayRead = true) : r.Clean := by
  unfold Run.Lawful at h
  rw [hp] at h
  cases point with
  | checking | reading | received bytes | delivering listener bytes => exact h.1
  | failed e | reporting e | telling listener e | leaving => cases hm

/-- What is known of a run wherever its thread stands. -/
theorem lawful_summary {state : ReaderState} {r : Run} (h : r.Lawful state) :
    (∀ a ∈ r.answers.dropLast, ∃ s, a = .ok s) ∧ r.told <+: r.error?.toList := by
  have hclean : r.Clean → ∀ a ∈ r.answers.dropLast, ∃ s, a = .ok s :=
    fun hc a ha => hc a (List.dropLast_subset _ ha)
  have hmet : ∀ {e}, r.Met e → ∀ a ∈ r.answers.dropLast, ∃ s, a = .ok s := by
    rintro e ⟨before, hok, hr⟩ a ha
    rw [hr, List.dropLast_concat] at ha
    exact hok a ha
  have hover : r.Over →
      (∀ a ∈ r.answers.dropLast, ∃ s, a = .ok s) ∧ r.told <+: r.error?.toList := by
    rintro (⟨hc, _, htold⟩ | ⟨e, hm, htold⟩)
    · exact ⟨hclean hc, by rw [htold]; exact List.nil_prefix⟩
    · refine ⟨hmet hm, ?_⟩
      rw [htold, error_of_met hm]
      split
      · exact List.nil_prefix
      · exact List.prefix_refl _
  have hnone : r.told = [] → r.told <+: r.error?.toList := by
    intro htold
    rw [htold]
    exact List.nil_prefix
  unfold Run.Lawful at h
  rcases hp : r.point with _ | point
  · rw [hp] at h
    exact hover h
  · rw [hp] at h
    cases point with
    | checking | reading | received bytes | delivering listener bytes =>
      exact ⟨hclean h.1, hnone h.2.1⟩
    | failed e | reporting e | telling listener e => exact ⟨hmet h.1, hnone h.2.1⟩
    | leaving => exact hover h

theorem slices_of_items {size : Nat} (hs : 1 ≤ size) (items : List Item) :
    (items.flatMap (cut size)).filterMap slice? =
      items.flatMap fun item => rows size (bytesOf item) := by
  rw [List.filterMap_flatMap]
  refine congrArg (fun f => items.flatMap f) (funext fun item => ?_)
  rcases item with e | chunk
  · exact (Monitor.rows_nil size).symm
  · exact slices_of_rows hs chunk

theorem flatten_items {size : Nat} (hs : 1 ≤ size) (items : List Item) :
    (items.flatMap fun item => rows size (bytesOf item)).flatten = items.flatMap bytesOf := by
  induction items with
  | nil => rfl
  | cons item items ih =>
    rw [List.flatMap_cons, List.flatten_append, ih, Monitor.flatten_rows hs, List.flatMap_cons]

theorem passedOn_of_good {size : Nat} {h : History} (hs : 1 ≤ size) (hg : Good size h) :
    PassedOn size h := by
  have hslices : h.given ++ h.hand ++ h.port.script.flatMap (fun item => rows size (bytesOf item)) =
      h.pushed.flatMap fun item => rows size (bytesOf item) := by
    rw [← slices_of_items hs, ← slices_of_items hs, ← hg.script, List.filterMap_append,
      slices_of_cut hs _ hg.short, hg.given]
  refine ⟨?_, ?_, hg.script, fun r hr => (lawful_summary (hg.runs r hr)).1, ?_, ?_,
    fun r hr => (lawful_summary (hg.runs r hr)).2, hg.alone, hg.at_rest⟩
  · rw [← hslices, List.append_assoc]
    exact List.prefix_append ..
  · rw [← flatten_items hs, ← flatten_items hs, ← hslices, List.flatten_append, List.flatten_append]
  · intro r hr herror point hp
    apply eq_false_of_ne_true
    intro hm
    rw [error_of_clean (clean_of_mayRead (hg.runs r hr) hp hm)] at herror
    cases herror
  · intro r hr hnone
    have hl := hg.runs r hr
    unfold Run.Lawful at hl
    rw [hnone] at hl
    rcases hl with ⟨hclean, hasked, htold⟩ | ⟨e, hmet, htold⟩
    · exact ⟨Or.inl hasked, by rw [htold, hasked]; rfl⟩
    · rw [error_of_met hmet]
      exact ⟨Or.inr rfl, htold⟩

/-- A reader passes its script through unchanged, whatever size its reads are asked to have and
whatever is done to it and to its port while its threads go on. From wherever it stands, a thread
left to itself comes to its end or to a read that has to wait, and until more is scripted no run
makes more reads than the script is good for and one that fails. -/
theorem a_reader_passes_its_script_through (size : Nat) (moves : List Move) :
    let h := (begin size).after moves
    h.reader.size = max size 1 ∧ PassedOn (max size 1) h ∧ ∀ n r, h.runs[n]? = some r →
      (∃ k r', (h.after (List.replicate k (.step n))).runs[n]? = some r' ∧
        r'.Rests (h.after (List.replicate k (.step n))).port) ∧
      ∀ more : List Move, (∀ move ∈ more, move.pushes = false) →
        ∃ r', (h.after more).runs[n]? = some r' ∧
          r'.answers.length ≤ r.answers.length + (ScriptedPort.scriptReads h.port.script + 1) := by
  intro h
  have hs : 1 ≤ max size 1 := Nat.le_max_right ..
  have hg : Good (max size 1) h := good_after size moves
  refine ⟨hg.size_eq, passedOn_of_good hs hg, ?_⟩
  intro n r hr
  refine ⟨comes_to_rest hs hg hr, ?_⟩
  intro more hmore
  obtain ⟨r', hr', hle⟩ := reads_after hs hg hr hmore
  refine ⟨r', hr', ?_⟩
  have hleast : r'.answers.length ≤ r'.reads (h.after more).port.script := Nat.le_add_right ..
  have hmost : r.reads h.port.script ≤
      r.answers.length + (ScriptedPort.scriptReads h.port.script + 1) := by
    unfold Run.reads
    split <;> omega
  exact Nat.le_trans hleast (Nat.le_trans hle hmost)

/-- A chunk is read in three slices. A stop falls between them, and the next run goes on with the
rest, up to the error. -/
example :
    let steps := List.replicate 4 (Move.step 0)
    let h := (begin 2).after
      ([.push [1, 2, 3, 4, 5], .pushError .closed, .start (.ok ())] ++ steps ++
      [.stop] ++ steps ++ [.start (.ok ())] ++ List.replicate 20 (.step 1))
    h.given = [[1, 2], [3, 4], [5]] ∧ h.runs.map (·.told) = [[], [.closed]] ∧
      h.reader.state = .stopped := by
  decide +kernel

end History

end Reader

end SerialLink
