-- A reader over a scripted port. Chunks and errors are scripted, the reader is
-- started and stopped, the port is closed and opened again, and the read
-- threads take their steps in between, all in any order. The listener is given
-- every chunk cut to the size of a read, in order, and each run ends at the
-- first error that it meets.
import SerialLink.Proofs.Monitor.Rows
import SerialLink.Proofs.Port.Reads
import SerialLink.Reader

namespace SerialLink

namespace Reader

open Monitor (rows)

/-! ## Runs of a reader -/

/-- An entry of a script. -/
abbrev Item := Except PortError Bytes

/-- What happens next. A start may find that the platform makes no thread. -/
inductive Move
  | push (chunk : Bytes)
  | pushError (e : PortError)
  | start (made : Except String Unit)
  | stop | close | reopen
  /-- A step of the thread of this run. -/
  | step (run : Nat)

/-- The thread has yet to see whether a stop was asked for. -/
def Point.looksAhead : Point Unit → Bool
  | .checking | .reading | .received _ | .delivering .. | .failed _ => true
  | .reporting _ | .telling .. | .leaving => false

/-- One run of the read thread. -/
structure Run where
  /-- Where the thread stands, until it is gone. -/
  point : Option (Point Unit) := some .checking
  /-- What its reads came back with. -/
  answers : List Item := []
  /-- The errors that it told the listener of. -/
  told : List PortError := []
  /-- A stop was asked for before the thread looked for the last time. -/
  asked : Bool := false

namespace Run

/-- A stop is asked for. -/
def ask (r : Run) : Run := { r with asked := r.asked || (r.point.map Point.looksAhead).getD false }

/-- The run behind a step. -/
def on (r : Run) : Next Unit → Run
  | .goto point => { r with point := some point }
  | .newData _ _ point => { r with point := some point }
  | .runError _ e point => { r with point := some point, told := r.told ++ [e] }
  | .done => { r with point := none }

/-- The slice that a read brought and the listener has not been given yet. -/
def hand (r : Run) : List Bytes :=
  match r.point with
  | some (.received bytes) | some (.delivering _ bytes) => [bytes]
  | _ => []

/-- The error that the run met. -/
def error? (r : Run) : Option PortError :=
  match r.answers.getLast? with
  | some (.error e) => some e
  | _ => none

end Run

/-- The slice that a step gives to the listener. -/
def Next.slice : Next Unit → List Bytes
  | .newData _ bytes _ => [bytes]
  | _ => []

/-- A reader, its port, and what came of all moves so far. -/
structure History where
  reader : Reader Unit
  port : ScriptedPort := {}
  runs : List Run := []
  /-- Slices given to the listener, in order. -/
  given : List Bytes := []
  /-- Everything that was ever scripted. -/
  pushed : List Item := []
  /-- What reads took from the script, in order. -/
  taken : List Item := []

namespace History

/-- What the read of a thread that stands at `point` comes back with. -/
def answer (h : History) (point : Point Unit) : Option Item :=
  if point = .reading then (h.port.read h.reader.size).1 else none

/-- The history behind a step of run `n`, whose thread stood at `point`. -/
def stepped (h : History) (n : Nat) (point : Point Unit) (next : Next Unit)
    (reader : Reader Unit) : History :=
  { h with
    reader
    port := if point = .reading then (h.port.read h.reader.size).2 else h.port
    runs := h.runs.modify n fun r =>
      { r.on next with answers := r.answers ++ (h.answer point).toList }
    given := h.given ++ next.slice
    taken := h.taken ++ if h.port.closed then [] else (h.answer point).toList }

/-- Makes a move; a thread that is gone or waits is passed over. -/
def extend (h : History) : Move → History
  | .push chunk => { h with port := h.port.push chunk, pushed := h.pushed ++ [.ok chunk] }
  | .pushError e => { h with port := h.port.pushError e, pushed := h.pushed ++ [.error e] }
  | .start made =>
    match h.reader.start made with
    | (.ok (), reader) => { h with reader, runs := h.runs ++ [{}] }
    | (.error _, reader) => { h with reader }
  | .stop => { h with reader := h.reader.stop, runs := h.runs.map Run.ask }
  | .close => { h with port := h.port.close }
  | .reopen => { h with port := h.port.reopen }
  | .step n =>
    match h.runs[n]?.bind (·.point) with
    | none => h
    | some point =>
      match h.reader.step (fun k => (h.port.read k).1) point with
      | none => h
      | some (next, reader) => h.stepped n point next reader

/-- The history behind some moves. -/
def after (h : History) (moves : List Move) : History := moves.foldl extend h

/-- A reader at rest with a listener, over an open port without a script. -/
def begin (size : Nat) : History := { reader := .new size (some ()) }

/-- The slices that were read and not given yet. -/
def hand (h : History) : List Bytes := h.runs.flatMap Run.hand

end History

/-! ## What a script is cut to -/

/-- An item as reads of at most `size` bytes bring it. An empty chunk is nothing to the listener. -/
def cut (size : Nat) : Item → List Item
  | .ok chunk => (rows size chunk).map .ok
  | .error e => [.error e]

/-- The slice for the listener that a read brought. -/
def slice? : Item → Option Bytes
  | .ok [] | .error _ => none
  | .ok bytes => some bytes

/-- The bytes of an item. -/
def bytesOf : Item → Bytes
  | .ok chunk => chunk
  | .error _ => []

theorem cut_ok (size : Nat) (chunk : Bytes) :
    cut size (.ok chunk) = (rows size chunk).map .ok := rfl

theorem cut_of_le {size : Nat} {s : Bytes} (hs : 1 ≤ size) (hlen : s.length ≤ size) :
    cut size (.ok s) = if s = [] then [] else [.ok s] := by
  rw [cut_ok]
  by_cases he : s = []
  · rw [he, Monitor.rows_nil]
    rfl
  · rw [Monitor.rows_of_le hs he hlen, if_neg he]
    rfl

/-- What reads of at most `size` bytes brought is cut already. -/
theorem slices_of_cut {size : Nat} (hs : 1 ≤ size) (items : List Item)
    (hlen : ∀ s, .ok s ∈ items → s.length ≤ size) :
    (items.flatMap (cut size)).filterMap slice? = items.filterMap slice? := by
  induction items with
  | nil => rfl
  | cons item items ih =>
    have hrest := ih fun s hm => hlen s (List.mem_cons_of_mem _ hm)
    rw [List.flatMap_cons, List.filterMap_append, hrest]
    rcases item with e | s
    · rfl
    · rw [cut_of_le hs (hlen s (List.mem_cons_self ..))]
      cases s with
      | nil => rfl
      | cons b s => rfl

theorem slices_of_rows {size : Nat} (hs : 1 ≤ size) (chunk : Bytes) :
    (cut size (.ok chunk)).filterMap slice? = rows size chunk := by
  rw [cut_ok]
  induction chunk using Monitor.rows.induct size with
  | case1 bytes h =>
    rw [Monitor.eq_nil_of_no_row hs h, Monitor.rows_nil]
    rfl
  | case2 bytes h ih =>
    have hb : bytes ≠ [] := fun he => h (Or.inr he)
    have hsome : slice? (.ok (bytes.take size)) = some (bytes.take size) := by
      obtain ⟨b, rest, hcons⟩ := List.exists_cons_of_ne_nil (Monitor.take_ne_nil hs hb)
      rw [hcons]
      rfl
    rw [Monitor.rows_of_ne_nil hs hb, List.map_cons, List.filterMap_cons_some hsome, ih]

/-- A read takes the first row of the script, or what is no row. -/
theorem cut_read {size : Nat} (hs : 1 ≤ size) {p : ScriptedPort} {a : Item}
    (hopen : p.closed = false) (h : (p.read size).1 = some a) :
    cut size a ++ (p.read size).2.script.flatMap (cut size) = p.script.flatMap (cut size) ∧
      ∀ s, a = .ok s → s.length ≤ size := by
  have hreads := p.reads_read size
  rw [h] at hreads
  generalize (p.read size).2 = p' at hreads
  cases hreads with
  | refused closed => rw [hopen] at closed; cases closed
  | failed _ script =>
    rw [script]
    exact ⟨rfl, nofun⟩
  | whole _ script fits =>
    rw [script]
    refine ⟨rfl, fun s he => ?_⟩
    cases he
    exact fits
  | @part chunk rest _ script long =>
    have hlen : (chunk.take size).length ≤ size := List.length_take_le ..
    refine ⟨?_, fun s he => by cases he; exact hlen⟩
    have hne : chunk ≠ [] := List.ne_nil_of_length_pos (by omega)
    rw [script, cut_of_le hs hlen, if_neg (Monitor.take_ne_nil hs hne), List.flatMap_cons,
      List.flatMap_cons, cut_ok size chunk, Monitor.rows_of_ne_nil hs hne, ← List.append_assoc]
    rfl

/-! ## What every move keeps -/

/-- A run that met an error after some reads that went well. -/
def Run.Met (r : Run) (e : PortError) : Prop :=
  ∃ before : List Item, (∀ a ∈ before, ∃ s, a = .ok s) ∧ r.answers = before ++ [.error e]

/-- A run that met no error. -/
def Run.Clean (r : Run) : Prop := ∀ a ∈ r.answers, ∃ s, a = .ok s

/-- A run that is over: a stop was asked for, or it met an error, and it told of that just when no
stop was asked for. -/
def Run.Over (r : Run) : Prop :=
  r.Clean ∧ r.asked = true ∧ r.told = [] ∨
    ∃ e, r.Met e ∧ r.told = if r.asked then [] else [e]

/-- What is known of a run from where its thread stands. -/
def Run.Lawful (state : ReaderState) (r : Run) : Prop :=
  match r.point with
  | some .checking | some .reading | some (.received _) | some (.delivering ..) =>
    r.Clean ∧ r.told = [] ∧ (r.asked = true ↔ state = .stopping)
  | some (.failed e) => r.Met e ∧ r.told = [] ∧ (r.asked = true ↔ state = .stopping)
  | some (.reporting e) | some (.telling _ e) => r.Met e ∧ r.told = [] ∧ r.asked = false
  | some .leaving | none => r.Over

namespace History

/-- What every move keeps of a reader whose reads bring `size` bytes at most. -/
structure Good (size : Nat) (h : History) : Prop where
  size_eq : h.reader.size = size
  listening : h.reader.listener = some ()
  /-- What was taken and what is still scripted is what was scripted. -/
  script : h.taken.flatMap (cut size) ++ h.port.script.flatMap (cut size) =
    h.pushed.flatMap (cut size)
  short : ∀ s, .ok s ∈ h.taken → s.length ≤ size
  given : h.given ++ h.hand = h.taken.filterMap slice?
  /-- Only the last run may be alive. -/
  alone : ∀ r ∈ h.runs.dropLast, r.point = none
  at_rest : h.reader.state = .stopped ↔ ∀ r ∈ h.runs, r.point = none
  runs : ∀ r ∈ h.runs, r.Lawful h.reader.state

section Good

variable {size n : Nat} {h d : History} {past : List Run} {r : Run} {point : Point Unit}

theorem hand_of_over {runs : List Run} (hp : ∀ q ∈ runs, q.point = none) :
    runs.flatMap Run.hand = [] := by
  rw [List.flatMap_eq_nil_iff]
  intro q hq
  unfold Run.hand
  rw [hp q hq]

theorem modify_last (past : List Run) (r : Run) (f : Run → Run) :
    (past ++ [r]).modify past.length f = past ++ [f r] := by
  induction past with
  | nil => rfl
  | cons q past ih => simp [ih]

/-- A thread that may take a step is that of the last run. -/
theorem Good.last (hg : Good size h) (hr : h.runs[n]? = some r) (hp : r.point = some point) :
    ∃ past, h.runs = past ++ [r] ∧ n = past.length ∧ ∀ q ∈ past, q.point = none := by
  obtain ⟨hlt, hget⟩ := List.getElem?_eq_some_iff.mp hr
  have hlast : n = h.runs.length - 1 := by
    rcases Nat.lt_or_ge n (h.runs.length - 1) with hn | hn
    · have hmem : r ∈ h.runs.dropLast := by
        rw [List.mem_iff_getElem]
        exact ⟨n, by rw [List.length_dropLast]; exact hn, by rw [List.getElem_dropLast]; exact hget⟩
      rw [hg.alone r hmem] at hp
      cases hp
    · omega
  have hne : h.runs ≠ [] := by
    intro he
    rw [he] at hlt
    cases hlt
  refine ⟨h.runs.dropLast, ?_, ?_, hg.alone⟩
  · have hr' : r = h.runs.getLast hne := by
      rw [List.getLast_eq_getElem]
      subst hlast
      exact hget.symm
    rw [hr', List.dropLast_concat_getLast]
  · rw [List.length_dropLast]
    exact hlast

/-- A reader whose thread is there is not at rest. -/
theorem Good.busy (hg : Good size h) (hr : r ∈ h.runs) (hp : r.point.isSome) :
    h.reader.state ≠ .stopped := by
  intro he
  rw [hg.at_rest.mp he r hr] at hp
  cases hp

/-- The last run goes on to `r'`, or comes to its end. -/
theorem Good.go_on (hg : Good size h) (r' : Run) (hruns : h.runs = past ++ [r])
    (hpast : ∀ q ∈ past, q.point = none) (hr : r.point.isSome) (hruns' : d.runs = past ++ [r'])
    (hsize : d.reader.size = size) (hlisten : d.reader.listener = some ())
    (hscript : d.taken.flatMap (cut size) ++ d.port.script.flatMap (cut size) =
      d.pushed.flatMap (cut size))
    (hshort : ∀ s, .ok s ∈ d.taken → s.length ≤ size)
    (hgiven : h.given ++ r.hand = h.taken.filterMap slice? →
      d.given ++ r'.hand = d.taken.filterMap slice?)
    (hstate : d.reader.state = h.reader.state ∧ r'.point.isSome ∨
      d.reader.state = .stopped ∧ r'.point = none)
    (hlawful : r.Lawful h.reader.state → r'.Lawful d.reader.state) : Good size d := by
  have hhand : ∀ q : Run, (past ++ [q]).flatMap Run.hand = q.hand := by
    intro q
    rw [List.flatMap_append, hand_of_over hpast, List.nil_append, List.flatMap_singleton]
  have hmem : r ∈ h.runs := by
    rw [hruns]
    simp
  refine ⟨hsize, hlisten, hscript, hshort, ?_, ?_, ?_, ?_⟩
  · have hold := hg.given
    unfold hand at hold ⊢
    rw [hruns, hhand] at hold
    rw [hruns', hhand]
    exact hgiven hold
  · rw [hruns', List.dropLast_concat]
    exact hpast
  · rcases hstate with ⟨hs, hsome⟩ | ⟨hs, hnone⟩
    · constructor
      · intro he
        exact absurd (hs ▸ he) (hg.busy hmem hr)
      · intro he
        rw [he r' (by rw [hruns']; simp)] at hsome
        cases hsome
    · constructor
      · intro _ q hq
        rw [hruns'] at hq
        rcases List.mem_append.mp hq with hq | hq
        · exact hpast q hq
        · rw [List.mem_singleton.mp hq]
          exact hnone
      · exact fun _ => hs
  · intro q hq
    rw [hruns'] at hq
    rcases List.mem_append.mp hq with hq | hq
    · -- What is known of a run that is over does not depend on the reader.
      have hq' := hg.runs q (by rw [hruns]; exact List.mem_append_left _ hq)
      unfold Run.Lawful at hq' ⊢
      rw [hpast q hq] at hq' ⊢
      exact hq'
    · rw [List.mem_singleton.mp hq]
      exact hlawful (hg.runs r hmem)

/-- A step that is no read only moves the slice in hand. -/
theorem Good.step_aside {next : Next Unit} {reader : Reader Unit} (hg : Good size h)
    (hr : h.runs[n]? = some r) (hp : r.point = some point) (hpoint : point ≠ .reading)
    (hreader : reader.size = h.reader.size ∧ reader.listener = h.reader.listener)
    (hhand : next.slice ++ (r.on next).hand = r.hand)
    (hstate : reader.state = h.reader.state ∧ (r.on next).point.isSome ∨
      reader.state = .stopped ∧ (r.on next).point = none)
    (hlawful : r.Lawful h.reader.state → (r.on next).Lawful reader.state) :
    Good size (h.stepped n point next reader) := by
  obtain ⟨past, hruns, rfl, hpast⟩ := hg.last hr hp
  have hnone : h.answer point = none := if_neg hpoint
  have hon : { r.on next with answers := r.answers ++ (h.answer point).toList } = r.on next := by
    rw [hnone]
    cases next <;> simp [Run.on]
  refine hg.go_on (r.on next) hruns hpast (by rw [hp]; rfl) ?_ ?_ ?_ ?_ ?_ ?_ hstate hlawful
  · unfold stepped
    dsimp only
    rw [hruns, modify_last, hon]
  · exact hreader.1.trans hg.size_eq
  · exact hreader.2.trans hg.listening
  · unfold stepped
    simp only [hnone, if_neg hpoint, Option.toList_none, ite_self, List.append_nil]
    exact hg.script
  · unfold stepped
    simp only [hnone, Option.toList_none, ite_self, List.append_nil]
    exact hg.short
  · intro hold
    unfold stepped
    simp only [hnone, Option.toList_none, ite_self, List.append_nil]
    rw [List.append_assoc, hhand]
    exact hold

/-- Where a thread goes with what its read brought. -/
def behind : Item → Point Unit
  | .ok [] => .checking
  | .ok bytes => .received bytes
  | .error e => .failed e

theorem step_reading {reader reader' : Reader Unit} {answer : Nat → Option Item}
    {next : Next Unit} (h : reader.step answer .reading = some (next, reader')) :
    ∃ a, answer reader.size = some a ∧ next = .goto (behind a) ∧ reader' = reader := by
  unfold Reader.step at h
  dsimp only at h
  rcases ha : answer reader.size with _ | e | _ | ⟨b, bytes⟩ <;> rw [ha] at h
  · cases h
  all_goals
    cases h
    exact ⟨_, rfl, rfl, rfl⟩

/-- What a read uses up of the script is cut already, and its slice comes to hand. A closed port
fails and uses up nothing. -/
theorem used_up (hs : 1 ≤ size) {p : ScriptedPort} {a : Item} (h : (p.read size).1 = some a) :
    let used := if p.closed then [] else [a]
    used.flatMap (cut size) ++ (p.read size).2.script.flatMap (cut size) =
        p.script.flatMap (cut size) ∧
      (∀ s, .ok s ∈ used → s.length ≤ size) ∧
      used.filterMap slice? = Run.hand { point := some (behind a) } := by
  intro used
  by_cases hc : p.closed = true
  · have hread : p.read size = (some (.error .closed), p) := by simp [ScriptedPort.read, hc]
    have hused : used = [] := if_pos hc
    rw [hread] at h ⊢
    cases h
    rw [hused]
    exact ⟨rfl, nofun, rfl⟩
  · have hused : used = [a] := if_neg hc
    obtain ⟨hcut, hshort⟩ := cut_read hs (eq_false_of_ne_true hc) h
    rw [hused, List.flatMap_singleton]
    refine ⟨hcut, fun s hmem => hshort s (List.mem_singleton.mp hmem).symm, ?_⟩
    rcases a with e | _ | ⟨b, bytes⟩ <;> rfl

theorem lawful_read {state : ReaderState} (hl : r.Lawful state) (hp : r.point = some .reading)
    (a : Item) :
    Run.Lawful state { r with point := some (behind a), answers := r.answers ++ [a] } := by
  unfold Run.Lawful at hl ⊢
  rw [hp] at hl
  obtain ⟨hclean, htold, hasked⟩ := hl
  have hok : ∀ s, Run.Clean { r with answers := r.answers ++ [.ok s] } := by
    intro s b hb
    rcases List.mem_append.mp hb with hb | hb
    · exact hclean b hb
    · exact ⟨s, List.mem_singleton.mp hb⟩
  rcases a with e | _ | ⟨b, bytes⟩
  · exact ⟨⟨r.answers, hclean, rfl⟩, htold, hasked⟩
  · exact ⟨hok [], htold, hasked⟩
  · exact ⟨hok (b :: bytes), htold, hasked⟩

/-- A read takes the next slice or error in hand. -/
theorem Good.step_reading {next : Next Unit} {reader : Reader Unit} (hs : 1 ≤ size)
    (hg : Good size h) (hr : h.runs[n]? = some r) (hp : r.point = some .reading)
    (hstep : h.reader.step (fun k => (h.port.read k).1) .reading = some (next, reader)) :
    Good size (h.stepped n .reading next reader) := by
  obtain ⟨past, hruns, rfl, hpast⟩ := hg.last hr hp
  obtain ⟨a, ha, rfl, rfl⟩ := History.step_reading hstep
  have hanswer : h.answer .reading = some a := ha
  rw [hg.size_eq] at ha
  have hread : h.reader.size = size := hg.size_eq
  obtain ⟨hcut, hshort, hhand⟩ := used_up hs ha
  refine hg.go_on { r with point := some (behind a), answers := r.answers ++ [a] }
    hruns hpast (by rw [hp]; rfl) ?_ hg.size_eq hg.listening ?_ ?_ ?_ (Or.inl ⟨rfl, rfl⟩)
    fun hl => lawful_read hl hp a
  · unfold stepped
    dsimp only
    rw [hruns, modify_last, hanswer]
    rfl
  · unfold stepped
    simp only [hanswer, if_true, hread, Option.toList_some]
    rw [List.flatMap_append, List.append_assoc, hcut]
    exact hg.script
  · unfold stepped
    simp only [hanswer, Option.toList_some]
    intro s hmem
    rcases List.mem_append.mp hmem with hmem | hmem
    · exact hg.short s hmem
    · exact hshort s hmem
  · intro hold
    have hempty : r.hand = [] := by
      unfold Run.hand
      rw [hp]
    rw [hempty, List.append_nil] at hold
    unfold stepped
    simp only [hanswer, Option.toList_some, Next.slice, List.append_nil]
    rw [List.filterMap_append, hhand, hold]
    rfl

/-- A thread that sees whether it may go on finds a stop that was asked for. -/
theorem lawful_checked {state : ReaderState} (hl : r.Lawful state)
    (hp : r.point = some .checking) (hbusy : state ≠ .stopped) :
    (r.on (.goto (if state = .running then .reading else .leaving))).Lawful state := by
  unfold Run.Lawful at hl ⊢
  rw [hp] at hl
  by_cases hrun : state = .running
  · simp only [Run.on, if_pos hrun]
    exact hl
  · have hstopping : state = .stopping := by
      cases state <;> simp_all
    simp only [Run.on, if_neg hrun]
    exact Or.inl ⟨hl.1, hl.2.2.mpr hstopping, hl.2.1⟩

/-- A thread whose read failed tells of that unless a stop was asked for. -/
theorem lawful_failed {state : ReaderState} {e : PortError} (hl : r.Lawful state)
    (hp : r.point = some (.failed e)) :
    (r.on (.goto (if state = .stopping then .leaving else .reporting e))).Lawful state := by
  unfold Run.Lawful at hl ⊢
  rw [hp] at hl
  obtain ⟨hmet, htold, hasked⟩ := hl
  by_cases hstop : state = .stopping
  · simp only [Run.on, if_pos hstop]
    exact Or.inr ⟨e, hmet, by rw [htold, hasked.mpr hstop]; rfl⟩
  · simp only [Run.on, if_neg hstop]
    exact ⟨hmet, htold, eq_false_of_ne_true fun ha => hstop (hasked.mp ha)⟩

/-- Every step of a thread keeps it. -/
theorem Good.step {next : Next Unit} {reader : Reader Unit} (hs : 1 ≤ size) (hg : Good size h)
    (hr : h.runs[n]? = some r) (hp : r.point = some point)
    (hstep : h.reader.step (fun k => (h.port.read k).1) point = some (next, reader)) :
    Good size (h.stepped n point next reader) := by
  have hlisten := hg.listening
  cases point with
  | reading => exact hg.step_reading hs hr hp hstep
  | checking =>
    simp only [Reader.step, Option.some.injEq, Prod.mk.injEq] at hstep
    obtain ⟨rfl, rfl⟩ := hstep
    refine hg.step_aside hr hp (by simp) ⟨rfl, rfl⟩ ?_ (Or.inl ⟨rfl, rfl⟩) ?_
    · split <;> simp [Next.slice, Run.on, Run.hand, hp]
    · exact fun hl => lawful_checked hl hp (hg.busy (List.mem_of_getElem? hr) (by rw [hp]; rfl))
  | received bytes | delivering listener bytes | reporting e =>
    -- What is known of the run stays as it is.
    simp only [Reader.step, hlisten, Option.some.injEq, Prod.mk.injEq] at hstep
    obtain ⟨rfl, rfl⟩ := hstep
    refine hg.step_aside hr hp (by simp) ⟨rfl, rfl⟩ ?_ (Or.inl ⟨rfl, rfl⟩) ?_
    · simp [Next.slice, Run.on, Run.hand, hp]
    · intro hl
      unfold Run.Lawful at hl ⊢
      rw [hp] at hl
      exact hl
  | failed e =>
    simp only [Reader.step, Option.some.injEq, Prod.mk.injEq] at hstep
    obtain ⟨rfl, rfl⟩ := hstep
    refine hg.step_aside hr hp (by simp) ⟨rfl, rfl⟩ ?_ (Or.inl ⟨rfl, rfl⟩) ?_
    · split <;> simp [Next.slice, Run.on, Run.hand, hp]
    · exact fun hl => lawful_failed hl hp
  | telling listener e =>
    simp only [Reader.step, Option.some.injEq, Prod.mk.injEq] at hstep
    obtain ⟨rfl, rfl⟩ := hstep
    refine hg.step_aside hr hp (by simp) ⟨rfl, rfl⟩ ?_ (Or.inl ⟨rfl, rfl⟩) ?_
    · simp [Next.slice, Run.on, Run.hand, hp]
    · intro hl
      unfold Run.Lawful at hl ⊢
      rw [hp] at hl
      obtain ⟨hmet, htold, hasked⟩ := hl
      refine Or.inr ⟨e, hmet, ?_⟩
      simp [Run.on, htold, hasked]
  | leaving =>
    simp only [Reader.step, Option.some.injEq, Prod.mk.injEq] at hstep
    obtain ⟨rfl, rfl⟩ := hstep
    refine hg.step_aside hr hp (by simp) ⟨rfl, rfl⟩ ?_ (Or.inr ⟨rfl, rfl⟩) ?_
    · simp [Next.slice, Run.on, Run.hand, hp]
    · intro hl
      unfold Run.Lawful at hl ⊢
      rw [hp] at hl
      exact hl

theorem good_begin (size : Nat) : Good (max size 1) (begin size) := by
  refine ⟨rfl, rfl, rfl, ?_, rfl, ?_, ?_, ?_⟩ <;> simp [begin, Reader.new]

/-- An item that is scripted comes behind what was scripted before. -/
theorem Good.scripted (hg : Good size h) (item : Item) :
    Good size { h with
      port := { h.port with script := h.port.script ++ [item] }
      pushed := h.pushed ++ [item] } := by
  refine ⟨hg.size_eq, hg.listening, ?_, hg.short, hg.given, hg.alone, hg.at_rest, hg.runs⟩
  rw [List.flatMap_append, List.flatMap_append, ← List.append_assoc, hg.script]

theorem Good.start (hg : Good size h) (made : Except String Unit) :
    Good size (h.extend (.start made)) := by
  unfold extend
  rcases hst : h.reader.state <;> rcases made with text | ⟨⟩ <;>
    simp only [Reader.start, hst] <;>
    try exact hg
  have hover : ∀ r ∈ h.runs, r.point = none := hg.at_rest.mp hst
  have hfirst : (h.runs ++ [({} : Run)]).flatMap Run.hand = h.runs.flatMap Run.hand := by
    rw [List.flatMap_append]
    exact List.append_nil _
  refine ⟨hg.size_eq, hg.listening, hg.script, hg.short, ?_, ?_, ?_, ?_⟩
  · unfold hand
    rw [hfirst]
    exact hg.given
  · rw [List.dropLast_concat]
    exact hover
  · constructor
    · intro he
      cases he
    · intro he
      exact absurd (he {} (by simp)) (by simp)
  · intro r hr
    rcases List.mem_append.mp hr with hr | hr
    · have hold := hg.runs r hr
      unfold Run.Lawful at hold ⊢
      rw [hover r hr] at hold ⊢
      exact hold
    · rw [List.mem_singleton.mp hr]
      exact ⟨by simp [Run.Clean], rfl, by simp⟩

@[simp] theorem point_ask (r : Run) : r.ask.point = r.point := rfl

/-- A run that a stop is asked of knows it before its thread looks for it. -/
theorem lawful_ask {state : ReaderState} (hl : r.Lawful state)
    (hbusy : r.point.isSome → state ≠ .stopped) :
    r.ask.Lawful (if state = .running then .stopping else state) := by
  have hstop : r.point.isSome → (if state = .running then ReaderState.stopping else state) =
      .stopping := by
    intro hsome
    have := hbusy hsome
    cases state <;> simp_all
  have hother : (r.point.map Point.looksAhead).getD false = false → r.ask = r := by
    intro hno
    unfold Run.ask
    rw [hno, Bool.or_false]
  unfold Run.Lawful at hl ⊢
  rw [point_ask]
  rcases hp : r.point with _ | point
  · rw [hother (by rw [hp]; rfl)]
    simpa [hp] using hl
  · rw [hstop (by rw [hp]; rfl)]
    rw [hp] at hl
    cases point with
    | reporting e | telling listener e | leaving =>
      rw [hother (by rw [hp]; rfl)]
      exact hl
    | checking | reading | received bytes | delivering listener bytes | failed e =>
      exact ⟨hl.1, hl.2.1, by simp [Run.ask, hp, Point.looksAhead]⟩

theorem Good.stop (hg : Good size h) : Good size (h.extend .stop) := by
  have hstate : h.reader.stop.state =
      if h.reader.state = .running then .stopping else h.reader.state := by
    unfold Reader.stop
    split <;> rfl
  have hkeep : h.reader.stop.size = h.reader.size ∧ h.reader.stop.listener = h.reader.listener := by
    unfold Reader.stop
    split <;> exact ⟨rfl, rfl⟩
  unfold extend
  refine ⟨hkeep.1.trans hg.size_eq, hkeep.2.trans hg.listening, hg.script, hg.short, ?_, ?_, ?_, ?_⟩
  · have hsame : (h.runs.map Run.ask).flatMap Run.hand = h.runs.flatMap Run.hand := by
      rw [List.flatMap_map]
      rfl
    unfold hand
    rw [hsame]
    exact hg.given
  · intro r hr
    rw [← List.map_dropLast] at hr
    obtain ⟨q, hq, rfl⟩ := List.mem_map.mp hr
    exact hg.alone q hq
  · have hsame : h.reader.stop.state = .stopped ↔ h.reader.state = .stopped := by
      rw [hstate]
      split <;> simp_all
    rw [hsame, hg.at_rest]
    simp [List.mem_map]
  · intro r hr
    obtain ⟨q, hq, rfl⟩ := List.mem_map.mp hr
    show q.ask.Lawful h.reader.stop.state
    rw [hstate]
    exact lawful_ask (hg.runs q hq) (hg.busy hq)

theorem Good.extend (hs : 1 ≤ size) (hg : Good size h) (move : Move) :
    Good size (h.extend move) := by
  cases move with
  | push chunk => exact hg.scripted (.ok chunk)
  | pushError e => exact hg.scripted (.error e)
  | start made => exact hg.start made
  | stop => exact hg.stop
  | close | reopen =>
    exact ⟨hg.size_eq, hg.listening, hg.script, hg.short, hg.given, hg.alone, hg.at_rest, hg.runs⟩
  | step n =>
    unfold History.extend
    dsimp only
    rcases hr : h.runs[n]? with _ | r
    · exact hg
    · rcases hp : r.point with _ | point
      · simpa [hp] using hg
      · simp only [Option.bind_some, hp]
        split
        · exact hg
        · rename_i next reader hstep
          exact hg.step hs hr hp hstep

theorem good_after (size : Nat) (moves : List Move) :
    Good (max size 1) ((begin size).after moves) := by
  have hkeep : ∀ h : History, Good (max size 1) h → Good (max size 1) (h.after moves) := by
    induction moves with
    | nil => exact fun h hg => hg
    | cons move moves ih => exact fun h hg => ih _ (hg.extend (Nat.le_max_right ..) move)
  exact hkeep _ (good_begin size)

end Good

end History

end Reader

end SerialLink
