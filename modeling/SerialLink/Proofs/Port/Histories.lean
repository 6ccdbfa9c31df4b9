-- What happens at a port that several threads read, while it is scripted, closed
-- and opened again: what one move does, who waits, and what comes of a port that
-- stays closed or is read to its end.
import Mathlib.Data.List.Perm.Basic
import SerialLink.Port.Shared
import SerialLink.Proofs.Port.Reads

namespace SerialLink

/-- An entry of a script. -/
abbrev ScriptEntry := Except PortError Bytes

namespace SharedPort

/-! ## Histories -/

/-- A read that came back: its buffer, what it returned and what the buffer held then, and whether
the port was closed when it looked. -/
structure Reading where
  buffer : Bytes
  result : Except PortError Nat
  filled : Bytes
  closed : Bool

/-- What is done to a port. -/
inductive Move
  | push (chunk : Bytes)
  | pushError (e : PortError)
  | close | reopen
  /-- A thread calls for bytes. -/
  | read (buffer : Bytes)
  /-- The turn of a read that waits. -/
  | resume (n : Nat)

/-- A port and the reads that wait at it, all that was ever scripted, the buffers that reads were
called with, and the reads that came back, oldest first. -/
structure History where
  shared : SharedPort := {}
  pushed : List ScriptEntry := []
  asked : List Bytes := []
  readings : List Reading := []

namespace History

def port (h : History) : ScriptedPort := h.shared.port

/-- Notes what a read came back with, if it did not fall asleep. -/
def note (h : History) (buffer : Bytes) :
    Option (Except PortError Nat × Bytes) × SharedPort → History
  | (none, shared) => { h with shared }
  | (some (result, filled), shared) =>
    { h with shared, readings := h.readings ++ [⟨buffer, result, filled, h.port.closed⟩] }

def extend (h : History) : Move → History
  | .push chunk => { h with shared := h.shared.push chunk, pushed := h.pushed ++ [.ok chunk] }
  | .pushError e => { h with shared := h.shared.pushError e, pushed := h.pushed ++ [.error e] }
  | .close => { h with shared := h.shared.close }
  | .reopen => { h with shared := h.shared.reopen }
  | .read buffer => { h with asked := h.asked ++ [buffer] }.note buffer (h.shared.read buffer)
  | .resume n =>
    match h.shared.waiting[n]? with
    | none => h
    | some w => h.note w.buffer (h.shared.resume n)

def after (h : History) (moves : List Move) : History := moves.foldl extend h

/-- An open port without a script. -/
def begin (packetSize : Nat) : History := { shared := { port := { packetSize } } }

end History

/-! ## What a move does -/

/-- A read of a port that came back. -/
inductive Comes (p : ScriptedPort) : Reading → ScriptedPort → Prop
  | refused {buffer : Bytes} (closed : p.closed = true) :
    Comes p ⟨buffer, .error .closed, buffer, true⟩ p
  | failed {buffer : Bytes} {e : PortError} {rest : List ScriptEntry} (opened : p.closed = false)
    (script : p.script = .error e :: rest) :
    Comes p ⟨buffer, .error e, buffer, false⟩ { p with script := rest }
  /-- Of a chunk that is too long for the buffer the rest stays in front of the script. -/
  | brought {buffer chunk : Bytes} {k : Nat} {left rest : List ScriptEntry}
    (opened : p.closed = false) (script : p.script = .ok chunk :: rest)
    (size : k = min buffer.length chunk.length)
    (whole : chunk.length ≤ k → left = []) (part : k < chunk.length → left = [.ok (chunk.drop k)]) :
    Comes p ⟨buffer, .ok k, chunk.take k ++ buffer.drop k, false⟩ { p with script := left ++ rest }

theorem comes_of_readInto {p p' : ScriptedPort} {buffer filled : Bytes} {closed : Bool}
    {result : Except PortError Nat} (h : p.readInto buffer = (some (result, filled), p'))
    (hclosed : p.closed = closed) : Comes p ⟨buffer, result, filled, closed⟩ p' := by
  have hreads := p.reads_read buffer.length
  rcases hread : p.read buffer.length with ⟨answer, behind⟩
  unfold ScriptedPort.readInto at h
  rw [hread] at hreads h
  cases hreads with
  | waits => cases h
  | refused hc =>
    cases h
    obtain rfl : closed = true := hclosed.symm.trans hc
    exact .refused hc
  | failed opened script =>
    cases h
    obtain rfl : closed = false := hclosed.symm.trans opened
    exact .failed opened script
  | @whole chunk rest opened script fits =>
    have hcomes : Comes p ⟨buffer, .ok chunk.length,
        chunk.take chunk.length ++ buffer.drop chunk.length, false⟩
        { p with script := [] ++ rest } :=
      .brought opened script (Nat.min_eq_right fits).symm (fun _ => rfl)
        fun hlt => absurd hlt (Nat.lt_irrefl _)
    cases h
    obtain rfl : closed = false := hclosed.symm.trans opened
    rwa [List.take_length] at hcomes
  | @part chunk rest opened script long =>
    have hlen : (chunk.take buffer.length).length = buffer.length :=
      List.length_take_of_le (Nat.le_of_lt long)
    cases h
    obtain rfl : closed = false := hclosed.symm.trans opened
    rw [hlen]
    exact .brought opened script (Nat.min_eq_left (Nat.le_of_lt long)).symm
      (fun hle => absurd long (Nat.not_lt_of_le hle)) fun _ => rfl

/-- A read of a shared port comes back as one of its port, or falls asleep. -/
theorem read_cases (s : SharedPort) (buffer : Bytes) :
    (∃ result filled port, s.read buffer = (some (result, filled), { s with port }) ∧
        Comes s.port ⟨buffer, result, filled, s.port.closed⟩ port) ∨
      s.port.closed = false ∧ s.port.script = [] ∧
        s.read buffer = (none, { s with waiting := s.waiting ++ [{ buffer }] }) := by
  unfold read
  rcases hread : s.port.readInto buffer with ⟨_ | ⟨result, filled⟩, port⟩
  · have hnone : (s.port.read buffer.length).1 = none := by
      have hfst := congrArg Prod.fst hread
      exact Option.map_eq_none_iff.mp hfst
    obtain ⟨hopen, hempty⟩ := ScriptedPort.read_eq_none_iff.mp hnone
    have hport : port = s.port := by
      refine (congrArg Prod.snd hread).symm.trans ?_
      unfold ScriptedPort.readInto
      rw [ScriptedPort.read_of_empty hopen hempty]
    exact Or.inr ⟨hopen, hempty, by rw [hport]⟩
  · exact Or.inl ⟨result, filled, port, rfl, comes_of_readInto hread rfl⟩

/-- The turn of a read that waits: one that was woken reads anew. -/
theorem resume_cases {s : SharedPort} {n : Nat} {w : WaitingRead} (hw : s.waiting[n]? = some w) :
    s.resume n = (none, s) ∨
      s.resume n = (s.without n).read w.buffer := by
  obtain ⟨buffer, woken⟩ := w
  unfold resume
  rw [hw]
  cases woken with
  | false => exact Or.inl rfl
  | true => exact Or.inr rfl

namespace History

/-- What a move does to a history, but for the reads that wait. -/
inductive Does (h : History) : History → Prop
  | aside {shared : SharedPort} {asked : List Bytes} (script : shared.port.script = h.port.script) :
    Does h { h with shared, asked }
  | scripted {shared : SharedPort} (entry : ScriptEntry)
    (script : shared.port.script = h.port.script ++ [entry]) :
    Does h { h with shared, pushed := h.pushed ++ [entry] }
  | came {shared : SharedPort} {asked : List Bytes} {r : Reading}
    (comes : Comes h.port r shared.port) :
    Does h { h with shared, asked, readings := h.readings ++ [r] }

theorem does_note (h : History) {s : SharedPort} (hport : s.port = h.port) (asked : List Bytes)
    (buffer : Bytes) : Does h (({ h with asked } : History).note buffer (s.read buffer)) := by
  rcases read_cases s buffer with ⟨result, filled, port, hread, hcomes⟩ | ⟨_, _, hread⟩
  all_goals rw [hread]
  · rw [hport] at hcomes
    exact .came hcomes
  · exact .aside (congrArg ScriptedPort.script hport)

/-- A read gets its turn in vain, or leaves those that wait and reads anew. -/
theorem extend_resume (h : History) (n : Nat) :
    h.extend (.resume n) = h ∨ ∃ w, h.shared.waiting[n]? = some w ∧
      h.extend (.resume n) = h.note w.buffer ((h.shared.without n).read w.buffer) := by
  unfold extend
  dsimp only
  rcases hw : h.shared.waiting[n]? with _ | w
  · exact Or.inl rfl
  · dsimp only
    rcases resume_cases hw with hsame | hagain
    · rw [hsame]
      exact Or.inl rfl
    · rw [hagain]
      exact Or.inr ⟨w, rfl, rfl⟩

theorem does_extend (h : History) (move : Move) : Does h (h.extend move) := by
  cases move with
  | push chunk => exact .scripted (.ok chunk) rfl
  | pushError e => exact .scripted (.error e) rfl
  | close | reopen => exact .aside rfl
  | read buffer => exact does_note h rfl _ buffer
  | resume n =>
    rcases h.extend_resume n with hsame | ⟨w, _, hagain⟩
    · rw [hsame]
      exact .aside rfl
    · rw [hagain]
      have hport : (h.shared.without n).port = h.port := rfl
      exact does_note h hport h.asked w.buffer

end History

/-! ## The reads that wait -/

/-- While there is something to read, or the port is closed, everyone is awake. -/
def Sleeps (s : SharedPort) : Prop :=
  ∀ w ∈ s.waiting, w.woken = false → s.port.closed = false ∧ s.port.script = []

section Waiting

variable {s : SharedPort} {p p' : ScriptedPort} {r : Reading}

theorem sleeps_wake (s : SharedPort) : Sleeps s.wake := by
  intro w hw hasleep
  obtain ⟨w', _, rfl⟩ := List.mem_map.mp hw
  cases hasleep

theorem Comes.not_waits (h : Comes p r p') : ¬ (p.closed = false ∧ p.script = []) := by
  rintro ⟨hopen, hempty⟩
  cases h with
  | refused closed => cases hopen.symm.trans closed
  | failed _ script | brought _ script => cases hempty.symm.trans script

theorem Sleeps.read (hs : Sleeps s) (buffer : Bytes) : Sleeps (s.read buffer).2 := by
  rcases read_cases s buffer with ⟨result, filled, port, hread, hcomes⟩ | ⟨hopen, hempty, hread⟩
  all_goals rw [hread]
  -- Where a read comes back, none of the others can have been asleep.
  · exact fun w hw hasleep => absurd (hs w hw hasleep) hcomes.not_waits
  · exact fun _ _ _ => ⟨hopen, hempty⟩

theorem Sleeps.without (hs : Sleeps s) (n : Nat) : Sleeps (s.without n) :=
  fun w hw => hs w (List.mem_of_mem_eraseIdx hw)

/-- A read waits just as long as the port is open and has no script. -/
theorem read_fst_eq_none_iff (s : SharedPort) (buffer : Bytes) :
    (s.read buffer).1 = none ↔ s.port.closed = false ∧ s.port.script = [] := by
  rcases read_cases s buffer with ⟨result, filled, port, hread, hcomes⟩ | ⟨hopen, hempty, hread⟩
  all_goals rw [hread]
  · exact ⟨nofun, fun hwaits => absurd hwaits hcomes.not_waits⟩
  · exact ⟨fun _ => ⟨hopen, hempty⟩, fun _ => rfl⟩

theorem Sleeps.resume_fst_eq_none_iff (hs : Sleeps s) {n : Nat} {w : WaitingRead}
    (hw : s.waiting[n]? = some w) :
    (s.resume n).1 = none ↔ s.port.closed = false ∧ s.port.script = [] := by
  obtain ⟨buffer, woken⟩ := w
  unfold SharedPort.resume
  rw [hw]
  cases woken with
  | true => exact read_fst_eq_none_iff _ buffer
  | false => exact ⟨fun _ => hs _ (List.mem_of_getElem? hw) rfl, fun _ => rfl⟩

theorem read_of_closed (hclosed : s.port.closed = true) (buffer : Bytes) :
    s.read buffer = (some (.error .closed, buffer), s) := by
  unfold SharedPort.read ScriptedPort.readInto ScriptedPort.read
  rw [if_pos hclosed]
  rfl

end Waiting

namespace History

section Calls

variable {h : History}

theorem note_shared (h : History) (buffer : Bytes)
    (answer : Option (Except PortError Nat × Bytes) × SharedPort) :
    (h.note buffer answer).shared = answer.2 := by
  obtain ⟨_ | _, _⟩ := answer <;> rfl

theorem note_asked (h : History) (buffer : Bytes)
    (answer : Option (Except PortError Nat × Bytes) × SharedPort) :
    (h.note buffer answer).asked = h.asked := by
  obtain ⟨_ | _, _⟩ := answer <;> rfl

theorem sleeps_extend (hs : Sleeps h.shared) (move : Move) : Sleeps (h.extend move).shared := by
  cases move with
  | push | pushError | close => exact sleeps_wake _
  | reopen => exact fun w hw hasleep => ⟨rfl, (hs w hw hasleep).2⟩
  | read buffer =>
    unfold extend
    rw [note_shared]
    exact hs.read buffer
  | resume n =>
    rcases h.extend_resume n with hsame | ⟨w, _, hagain⟩
    · rw [hsame]
      exact hs
    · rw [hagain, note_shared]
      exact (hs.without n).read w.buffer

/-- The buffers of the reads that came back and of those that wait. -/
def calls (h : History) : List Bytes :=
  h.readings.map Reading.buffer ++ h.shared.waiting.map WaitingRead.buffer

/-- A read that looks at the port comes back or waits. -/
theorem calls_note {s : SharedPort} (buffer : Bytes) :
    (h.note buffer (s.read buffer)).calls.Perm
      (({ h with shared := s } : History).calls ++ [buffer]) := by
  unfold calls
  rcases read_cases s buffer with ⟨result, filled, port, hread, _⟩ | ⟨_, _, hread⟩
  all_goals
    rw [hread, List.append_assoc]
    unfold note
    dsimp only
    rw [List.map_append]
  · rw [List.append_assoc]
    exact List.perm_append_comm.append_left _
  · exact .refl _

/-- Every read that was called came back or waits. -/
theorem calls_extend (hc : h.calls.Perm h.asked) (move : Move) :
    (h.extend move).calls.Perm (h.extend move).asked := by
  have hwake : ∀ s : SharedPort, s.wake.waiting.map WaitingRead.buffer =
      s.waiting.map WaitingRead.buffer := fun s => List.map_map ..
  cases move with
  | push | pushError | close =>
    unfold calls extend
    dsimp only [SharedPort.push, SharedPort.pushError, SharedPort.close]
    rw [hwake]
    exact hc
  | reopen => exact hc
  | read buffer =>
    unfold extend
    rw [note_asked]
    exact (calls_note buffer).trans (hc.append_right _)
  | resume n =>
    rcases h.extend_resume n with hsame | ⟨w, hw, hagain⟩
    · rw [hsame]
      exact hc
    · obtain ⟨hlt, rfl⟩ := List.getElem?_eq_some_iff.mp hw
      have hwaiting : ((h.shared.waiting.eraseIdx n).map WaitingRead.buffer ++
          [h.shared.waiting[n].buffer]).Perm (h.shared.waiting.map WaitingRead.buffer) :=
        List.perm_append_comm.trans ((List.getElem_cons_eraseIdx_perm hlt).map WaitingRead.buffer)
      rw [hagain, note_asked]
      refine (calls_note _).trans (List.Perm.trans ?_ hc)
      unfold calls
      rw [List.append_assoc]
      exact hwaiting.append_left _

end Calls

/-! ## A closed port, and one that is read to its end -/

/-- What comes of a port that stays closed: what is scripted stands there to the last entry, and
every read that comes back is refused. -/
structure Frozen (h h' : History) : Prop where
  closed : h'.port.closed = true
  scripted : ∃ more, h'.pushed = h.pushed ++ more ∧ h'.port.script = h.port.script ++ more
  readings : ∃ buffers : List Bytes, h'.readings =
    h.readings ++ buffers.map fun buffer => ⟨buffer, .error .closed, buffer, true⟩

section Frozen

variable {h h' h'' : History}

theorem Frozen.refl (hclosed : h.port.closed = true) : Frozen h h :=
  ⟨hclosed, ⟨[], (List.append_nil _).symm, (List.append_nil _).symm⟩,
    ⟨[], (List.append_nil _).symm⟩⟩

theorem Frozen.trans (hf : Frozen h h') (hg : Frozen h' h'') : Frozen h h'' := by
  obtain ⟨_, ⟨entries, hpushed, hscript⟩, ⟨buffers, hreadings⟩⟩ := hf
  obtain ⟨hclosed, ⟨entries', hpushed', hscript'⟩, ⟨buffers', hreadings'⟩⟩ := hg
  refine ⟨hclosed, ⟨entries ++ entries', ?_, ?_⟩, ⟨buffers ++ buffers', ?_⟩⟩
  · rw [hpushed', hpushed, List.append_assoc]
  · rw [hscript', hscript, List.append_assoc]
  · rw [hreadings', hreadings, List.map_append, List.append_assoc]

theorem frozen_note (hclosed : h.port.closed = true) {s : SharedPort} (hport : s.port = h.port)
    (asked : List Bytes) (buffer : Bytes) :
    Frozen h (({ h with asked } : History).note buffer (s.read buffer)) := by
  rw [read_of_closed (hport.symm ▸ hclosed)]
  refine ⟨?_, ⟨[], (List.append_nil _).symm, ?_⟩, ⟨[buffer], ?_⟩⟩
  · change s.port.closed = true
    rw [hport]
    exact hclosed
  · change s.port.script = _
    rw [hport, List.append_nil]
  · change h.readings ++ [⟨buffer, .error .closed, buffer, h.port.closed⟩] = _
    rw [hclosed]
    rfl

theorem frozen_extend (hclosed : h.port.closed = true) {move : Move} (hmove : move ≠ .reopen) :
    Frozen h (h.extend move) := by
  cases move with
  | push chunk =>
    exact ⟨hclosed, ⟨[.ok chunk], rfl, rfl⟩, ⟨[], (List.append_nil _).symm⟩⟩
  | pushError e =>
    exact ⟨hclosed, ⟨[.error e], rfl, rfl⟩, ⟨[], (List.append_nil _).symm⟩⟩
  | close =>
    exact ⟨rfl, ⟨[], (List.append_nil _).symm, (List.append_nil _).symm⟩,
      ⟨[], (List.append_nil _).symm⟩⟩
  | reopen => exact absurd rfl hmove
  | read buffer => exact frozen_note hclosed rfl _ buffer
  | resume n =>
    rcases h.extend_resume n with hsame | ⟨w, _, hagain⟩
    · rw [hsame]
      exact .refl hclosed
    · rw [hagain]
      have hport : (h.shared.without n).port = h.port := rfl
      exact frozen_note hclosed hport h.asked w.buffer

theorem frozen_after (hclosed : h.port.closed = true) {moves : List Move}
    (hmoves : Move.reopen ∉ moves) : Frozen h (h.after moves) := by
  induction moves generalizing h with
  | nil => exact .refl hclosed
  | cons move moves ih =>
    have hmove : move ≠ .reopen := (List.ne_of_not_mem_cons hmoves).symm
    have hrest : Move.reopen ∉ moves := List.not_mem_of_not_mem_cons hmoves
    have hstep := frozen_extend hclosed hmove
    exact hstep.trans (ih hstep.closed hrest)

end Frozen

section Drained

variable {h : History}

theorem port_read (h : History) (buffer : Bytes) :
    (h.extend (.read buffer)).port = (h.port.read buffer.length).2 := by
  unfold extend port
  rw [note_shared]
  unfold SharedPort.read
  rcases hread : h.shared.port.readInto buffer with ⟨_ | _, _⟩
  all_goals exact (congrArg Prod.snd hread).symm

/-- Reads that have room for a byte come to the end of what is scripted. -/
theorem drained {buffers : List Bytes} (hopen : h.port.closed = false)
    (hroom : ∀ buffer ∈ buffers, buffer ≠ [])
    (hlen : ScriptedPort.scriptReads h.port.script ≤ buffers.length) :
    (h.after (buffers.map .read)).port.script = [] := by
  induction buffers generalizing h with
  | nil => exact ScriptedPort.scriptReads_eq_zero.mp (Nat.le_zero.mp hlen)
  | cons buffer buffers ih =>
    obtain ⟨hbuffer, hrest⟩ := List.forall_mem_cons.mp hroom
    rw [List.length_cons] at hlen
    have hport := h.port_read buffer
    -- Each read uses up at least one of those that the script is good for.
    apply ih (h := h.extend (.read buffer))
    · rw [hport, ScriptedPort.read_closed]
      exact hopen
    · exact hrest
    · have huse := ScriptedPort.scriptReads_read_le (List.length_pos_iff.mpr hbuffer) hopen
      rw [hport]
      omega

end Drained

end History

end SharedPort

end SerialLink
