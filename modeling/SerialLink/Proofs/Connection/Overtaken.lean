-- An attempt that was overtaken: it has ended, a newer one has begun, and a
-- thread comes back from the host and goes on for the older one. No such
-- thread touches the session again. It keeps off the ring and the feeding
-- marker too, but for one that finds the line parameters set: nothing asks
-- there whether its attempt still connects.
import SerialLink.Proofs.Connection.Attempts
import SerialLink.Proofs.Connection.Passage
import SerialLink.Proofs.Connection.Threads

namespace SerialLink.Connection

/-! ## The shape of a thread -/

/-- The marker was set for attempt `n`. -/
def Fed (es : List Entry) (n : Nat) : Prop := ∃ e ∈ es, e.task = .startFeeding n

/-- A stage that comes behind the marker. -/
def Task.isFed : Task → Bool
  | .recordReader .. | .startReader .. | .startDrain _ | .recordDrain .. => true
  | _ => false

/-- A task that neither opens for an attempt nor leads to that. -/
def Task.isFree : Task → Bool
  | .connect | .handle _ | .clearRing | .startFeeding _ => false
  | t => t.drives.isNone

/-- What a thread has yet to do. It opens for one attempt at most, and comes back with a result
behind that. -/
inductive Shaped (es : List Entry) : List Task → Prop
  | nil : Shaped es []
  | free {t : Task} {l : List Task} (ht : t.isFree) (hl : Shaped es l) : Shaped es (t :: l)
  | starting {t : Task} (ht : t = .connect ∨ ∃ kind, t = .handle kind) : Shaped es [t]
  | driving {t : Task} {n : Nat} {l : List Task} (hn : t.drives = some n)
    (fed : t.isFed → Fed es n) (hl : ∀ u ∈ l, ∃ r, u = .finish r) : Shaped es (t :: l)
  | clearing {n port : Nat} {l : List Task} (hl : ∀ u ∈ l, ∃ r, u = .finish r) :
    Shaped es (.clearRing :: .startFeeding n :: .recordReader n port :: l)
  | feeding {n port : Nat} {l : List Task} (hl : ∀ u ∈ l, ∃ r, u = .finish r) :
    Shaped es (.startFeeding n :: .recordReader n port :: l)

section Shaped

variable {es : List Entry} {c : Connection} {task : Task} {rest l : List Task} {o : Outcome}
  {x : Outside} {move : Move} {n : Nat}

theorem Fed.mono (h : Fed es n) (e : Entry) : Fed (es ++ [e]) n := by
  obtain ⟨f, hf, ht⟩ := h
  exact ⟨f, List.mem_append_left _ hf, ht⟩

theorem Shaped.mono (h : Shaped es l) (e : Entry) : Shaped (es ++ [e]) l := by
  induction h with
  | nil => exact .nil
  | free ht _ ih => exact .free ht ih
  | starting ht => exact .starting ht
  | driving hn fed hl => exact .driving hn (fun hf => (fed hf).mono e) hl
  | clearing hl => exact .clearing hl
  | feeding hl => exact .feeding hl

theorem isFree_of_drives (h : task.isFree) : task.drives = none := by
  cases task <;> first | rfl | cases h

theorem Shaped.append_free {front : List Task} (hf : ∀ t ∈ front, t.isFree) (h : Shaped es l) :
    Shaped es (front ++ l) := by
  induction front with
  | nil => exact h
  | cons t front ih =>
    refine .free (hf t (List.mem_cons_self ..)) (ih fun u hu => ?_)
    exact hf u (List.mem_cons_of_mem _ hu)

theorem Shaped.of_results (h : ∀ u ∈ l, ∃ r, u = .finish r) : Shaped es l := by
  rw [← List.append_nil l]
  refine .append_free (fun t ht => ?_) .nil
  obtain ⟨r, rfl⟩ := h t ht
  rfl

theorem isFree_of_worker (h : task.isWorker) : task.isFree := by
  cases task <;> first | rfl | cases h

theorem isFree_of_release (h : task.isRelease) : task.isFree := by
  cases task <;> first | rfl | cases h

/-- A free task leaves free tasks, and starts no thread. -/
theorem Turn.free (h : Turn c task o) (ht : task.isFree) :
    (∀ t ∈ o.next, t.isFree) ∧ o.started = [] := by
  cases h with
  | worker _ _ _ hn hs =>
    refine ⟨fun t hm => ?_, hs⟩
    rcases hn t hm with hw | ⟨_, _, _, _, _, rfl⟩
    · exact isFree_of_worker hw
    · rfl
  | aside _ _ _ hn hs =>
    refine ⟨fun t hm => ?_, hs⟩
    obtain ⟨_, _, _, rfl⟩ := hn t hm
    rfl
  | torn =>
    refine ⟨fun t hm => ?_, rfl⟩
    rcases List.mem_append.mp hm with hm | hm
    · exact isFree_of_release (isRelease_of_mem hm)
    · exact List.mem_singleton.mp hm ▸ rfl
  | letGo => exact ⟨fun t hm => isFree_of_release (isRelease_of_mem hm), rfl⟩
  | failing hf => cases hf <;> cases ht
  | idle | notified | readerStopped | unsubscribed | closed => exact ⟨by simp, rfl⟩
  | _ => cases ht

theorem Shaped.step_starting (h : Turn c task o)
    (ht : task = .connect ∨ ∃ kind, task = .handle kind) :
    ∀ l ∈ o.next :: o.started, Shaped es l := by
  have hresult : ∀ r, ∀ u ∈ [Task.finish r], ∃ r, u = Task.finish r := by simp
  rcases ht with rfl | ⟨kind, rfl⟩
  · cases h with
    | worker hw => cases hw
    | aside ha => cases ha
    | idle hi => cases hi
    | failing hf => cases hf
    | refused => simpa using Shaped.nil
    | @begun _ permitted =>
      simp only [List.mem_singleton, forall_eq]
      refine .free rfl (.free rfl ?_)
      cases permitted
      · exact .driving rfl (fun hf => by cases hf) (hresult _)
      · exact .driving rfl (fun hf => by cases hf) (hresult _)
  · cases h with
    | worker hw => cases hw
    | aside ha => cases ha
    | idle => simpa using Shaped.nil
    | failing =>
      simp only [List.mem_singleton, forall_eq]
      exact .driving rfl (fun hf => by cases hf) (by simp)
    | granted =>
      simp only [List.mem_singleton, forall_eq]
      exact .driving rfl (fun hf => by cases hf) (by simp)
    | detached =>
      simp only [List.mem_singleton, forall_eq]
      exact .free rfl .nil

theorem Shaped.step_driving (h : Turn c task o) (hn : task.drives = some n)
    (fed : task.isFed → Fed es n) (hl : ∀ u ∈ rest, ∃ r, u = .finish r) :
    ∀ l ∈ (o.next ++ rest) :: o.started, Shaped es l := by
  have hdone : Shaped es rest := .of_results hl
  -- A stage that comes behind the marker is led to by one that does, or by the marker itself.
  have hnext : ∀ t : Task, t.drives = some n → (t.isFed → task.isFed) → Shaped es (t :: rest) :=
    fun t ht hf => .driving ht (fun h => fed (hf h)) hl
  cases h with
  | worker hw => rw [drives_of_worker hw] at hn; cases hn
  | aside ha => rw [drives_of_aside ha] at hn; cases hn
  | failing hf =>
    simp only [List.cons_append, List.nil_append, List.mem_singleton, forall_eq]
    cases hf with
    | denial => cases hn
    | _ => exact hnext _ hn (fun h => by cases h)
  | idle => simpa using hdone
  | failed =>
    simp only [List.mem_singleton, forall_eq, List.append_assoc]
    exact .append_free (fun t ht => isFree_of_release (isRelease_of_mem ht)) (.free rfl hdone)
  | requesting | opening | portRecorded | configuring =>
    simp only [List.cons_append, List.nil_append, List.mem_singleton, forall_eq]
    exact hnext _ hn (fun h => by cases h)
  | readerRecorded =>
    simp only [List.cons_append, List.nil_append, List.mem_singleton, forall_eq]
    exact hnext _ hn (fun _ => rfl)
  | portOrphaned | completed =>
    simp only [List.cons_append, List.nil_append, List.mem_singleton, forall_eq]
    exact .free rfl hdone
  | configured =>
    cases hn
    simp only [List.cons_append, List.nil_append, List.mem_singleton, forall_eq]
    exact .clearing hl
  | readerOrphaned | drainOrphaned => simpa using hdone
  | readerStarted | drainStarted =>
    simp only [List.cons_append, List.nil_append, List.mem_cons, List.not_mem_nil, or_false,
      forall_eq_or_imp, forall_eq]
    exact ⟨hnext _ hn (fun _ => rfl), .free rfl .nil⟩
  | _ => cases hn

theorem Shaped.step (ho : c.exec x task = some o) (h : Shaped es (task :: rest)) :
    ∀ l ∈ (o.next ++ rest) :: o.started,
      Shaped (es ++ [⟨move, c, task, o.effects, o.connection⟩]) l := by
  have hturn := exec_turn ho
  cases h with
  | free ht hl =>
    obtain ⟨hnext, hs⟩ := hturn.free ht
    rw [hs]
    simp only [List.mem_singleton, forall_eq]
    exact .append_free hnext (hl.mono _)
  | starting ht =>
    rw [List.append_nil]
    exact step_starting hturn ht
  | driving hn fed hl => exact step_driving hturn hn (fun hf => (fed hf).mono _) hl
  | clearing hl =>
    simp only [exec, Option.some.injEq] at ho
    subst ho
    simp only [List.nil_append, List.mem_singleton, forall_eq]
    exact .feeding hl
  | feeding hl =>
    simp only [exec, Option.some.injEq] at ho
    subst ho
    simp only [List.nil_append, List.mem_singleton, forall_eq]
    exact .driving rfl (fun _ => ⟨_, List.mem_append_right _ (List.mem_singleton_self _), rfl⟩) hl

theorem shaped_of_begins {others : Multiset Task} (hb : Begins c others move task) :
    Shaped es [task] := by
  cases hb with
  | connect => exact .starting (Or.inl rfl)
  | event => exact .starting (Or.inr ⟨_, rfl⟩)
  | _ => exact .free rfl .nil

theorem shaped_of_moves (c : Connection) (moves : List Move) :
    ∀ l ∈ (History.of c moves).machine.threads, Shaped (History.of c moves).entries l :=
  History.every_thread (Q := Shaped) (fun h => h.mono _) shaped_of_begins (fun ho h => h.step ho)
    moves

/-- Behind a task for an attempt a thread only comes back with a result. -/
theorem Shaped.results (h : Shaped es (task :: rest)) (hn : task.drives = some n) :
    ∀ u ∈ rest, ∃ r, u = .finish r := by
  cases h with
  | free ht => rw [isFree_of_drives ht] at hn; cases hn
  | starting ht => rcases ht with rfl | ⟨_, rfl⟩ <;> cases hn
  | driving _ _ hl => exact hl
  | _ => cases hn

end Shaped

/-! ## What an overtaken attempt has yet to do -/

/-- A task that a thread may have for attempt `n` once a newer one has begun. -/
inductive Late (n : Nat) : Task → Prop
  | driving {t : Task} (h : t.drives = some n) : Late n t
  | clearing : Late n .clearRing
  | feeding : Late n (.startFeeding n)
  | closing {port : Nat} : Late n (.closePort port)
  | result {r : Returned} : Late n (.finish r)

/-- A task that empties the ring and sets the marker, or comes to it. -/
def Task.feeds : Task → Bool
  | .setParameters .. | .parametersSet _ _ (.ok _) | .clearRing | .startFeeding _ => true
  | _ => false

section Late

variable {c : Connection} {task : Task} {o : Outcome} {x : Outside} {n : Nat}

theorem not_connecting (hn : n < c.session.attempt) : c.isConnecting n = false := by
  apply eq_false_of_ne_true
  intro h
  have := ((isConnecting_iff c n).mp h).1
  omega

/-- A task for an attempt that was overtaken leaves the session as it is. What is left to be done
is late as well, and does not come to the ring unless the task did. -/
theorem Turn.late (h : Turn c task o) (hn : task.drives = some n) (hlt : n < c.session.attempt) :
    o.connection.session = c.session ∧ (∀ t ∈ o.next, Late n t) ∧
      (task.feeds = false → ∀ t ∈ o.next, t.feeds = false) := by
  cases h with
  | worker hw => rw [drives_of_worker hw] at hn; cases hn
  | aside ha => rw [drives_of_aside ha] at hn; cases hn
  | idle | readerOrphaned | drainOrphaned => exact ⟨rfl, by simp, by simp⟩
  | failing hf =>
    refine ⟨rfl, ?_, by simp [Task.feeds]⟩
    rw [List.forall_mem_singleton]
    cases hf with
    | denial => cases hn
    | _ => exact .driving hn
  | requesting | opening | readerStarted | drainStarted =>
    exact ⟨rfl, List.forall_mem_singleton.mpr (.driving hn), by simp [Task.feeds]⟩
  | configuring => exact ⟨rfl, List.forall_mem_singleton.mpr (.driving hn), nofun⟩
  | portOrphaned =>
    exact ⟨rfl, List.forall_mem_singleton.mpr .closing, by simp [Task.feeds]⟩
  | configured =>
    cases hn
    refine ⟨rfl, ?_, nofun⟩
    simp only [List.forall_mem_cons]
    exact ⟨.clearing, .feeding, .driving rfl, nofun⟩
  | portRecorded hc | readerRecorded hc | completed hc =>
    cases hn
    rw [not_connecting hlt] at hc
    cases hc
  | failed he =>
    cases hn
    omega
  | _ => cases hn

/-- One step of a thread of an overtaken attempt. -/
theorem late_step (h : c.exec x task = some o) (hl : Late n task) (hlt : n < c.session.attempt) :
    o.connection.session = c.session ∧ ∀ t ∈ o.next, Late n t := by
  cases hl with
  | driving hn => exact ⟨((exec_turn h).late hn hlt).1, ((exec_turn h).late hn hlt).2.1⟩
  | _ =>
    simp only [exec, Option.some.injEq] at h
    subst h
    exact ⟨rfl, by simp⟩

/-- Ring and marker are left as they are too by a task that does not come to them. -/
theorem late_bytes (h : c.exec x task = some o) (hl : Late n task) (hf : task.feeds = false)
    (hlt : n < c.session.attempt) :
    (o.connection.ring = c.ring ∧ o.connection.feeding = c.feeding) ∧
      ∀ t ∈ o.next, t.feeds = false := by
  cases hl with
  | driving hn =>
    have hcarries : task.carries = false := by cases task <;> first | rfl | cases hn
    have hmark : ∀ m, task ≠ .startFeeding m := by
      rintro m rfl
      cases hn
    exact ⟨⟨(exec_sameBytes h hcarries).ring, (untouched_of_exec h).feeding hmark⟩,
      ((exec_turn h).late hn hlt).2.2 hf⟩
  | clearing | feeding => cases hf
  | closing | result =>
    simp only [exec, Option.some.injEq] at h
    subst h
    exact ⟨⟨rfl, rfl⟩, by simp⟩

end Late

/-! ## The marker while an attempt is connected -/

/-- The marker was set for attempt `n` when a newer one had begun. -/
def FedLate (es : List Entry) (n : Nat) : Prop :=
  ∃ e ∈ es, e.task = .startFeeding n ∧ n < e.before.session.attempt

/-- What is known of the marker from what happened. -/
structure Marked (es : List Entry) (c : Connection) : Prop where
  begun : ∀ n, Fed es n → n ≤ c.session.attempt
  fed : c.session.state = .connected → Fed es c.session.attempt
  marker : Fed es c.session.attempt → c.feeding = c.session.attempt ∨ FedLate es c.feeding

section Marked

variable {es : List Entry} {c : Connection} {task : Task} {rest : List Task} {o : Outcome}
  {x : Outside} {move : Move} {n : Nat}

theorem Shaped.fed {k : Nat} (h : Shaped es (.recordDrain n k :: rest)) : Fed es n := by
  cases h with
  | free ht => cases ht
  | starting ht => rcases ht with h | ⟨_, h⟩ <;> cases h
  | driving hn fed =>
    cases hn
    exact fed rfl

/-- What is left behind the setting of the marker makes the reader for that attempt. -/
theorem Shaped.behind_feeding (h : Shaped es (.startFeeding n :: rest)) :
    ∃ port, .recordReader n port ∈ rest := by
  cases h with
  | free ht => cases ht
  | starting ht => rcases ht with h | ⟨_, h⟩ <;> cases h
  | driving hn => cases hn
  | @feeding _ port => exact ⟨port, List.mem_cons_self ..⟩

theorem Shaped.behind_clearing (h : Shaped es (.clearRing :: rest)) :
    ∃ n port l, rest = .startFeeding n :: .recordReader n port :: l := by
  cases h with
  | free ht => cases ht
  | starting ht => rcases ht with h | ⟨_, h⟩ <;> cases h
  | driving hn => cases hn
  | @clearing n port l => exact ⟨n, port, l, rfl⟩

theorem fed_snoc {e : Entry} :
    Fed (es ++ [e]) n ↔ Fed es n ∨ e.task = .startFeeding n := by
  unfold Fed
  constructor
  · rintro ⟨f, hf, ht⟩
    rcases List.mem_append.mp hf with hf | hf
    · exact Or.inl ⟨f, hf, ht⟩
    · exact Or.inr (List.mem_singleton.mp hf ▸ ht)
  · rintro (⟨f, hf, ht⟩ | ht)
    · exact ⟨f, List.mem_append_left _ hf, ht⟩
    · exact ⟨e, List.mem_append_right _ (List.mem_singleton_self e), ht⟩

theorem FedLate.mono (h : FedLate es n) (e : Entry) : FedLate (es ++ [e]) n := by
  obtain ⟨f, hf, ht⟩ := h
  exact ⟨f, List.mem_append_left _ hf, ht⟩

theorem Marked.step (h : Marked es c) (ho : c.exec x task = some o)
    (hs : Shaped es (task :: rest)) (hle : ∀ n, task = .startFeeding n → n ≤ c.session.attempt) :
    Marked (es ++ [⟨move, c, task, o.effects, o.connection⟩]) o.connection := by
  have hturn := exec_turn ho
  refine ⟨?_, ?_, ?_⟩
  · intro n hn
    refine Nat.le_trans ?_ hturn.attempt_le
    rcases fed_snoc.mp hn with hn | hn
    · exact h.begun n hn
    · exact hle n hn
  · intro hup
    refine fed_snoc.mpr (Or.inl ?_)
    rcases hturn.change with hk | hch
    · rw [hk.2]
      exact h.fed (hk.1.symm.trans hup)
    · cases hch with
      | completed _ _ ha =>
        rw [ha]
        exact hs.fed
      | begun _ h' => rcases h' with h' | h' <;> rw [h'] at hup <;> cases hup
      | granted _ h' | failed _ h' | ended _ h' =>
        rw [h'] at hup
        cases hup
  · intro hfed
    by_cases hmark : ∃ n, task = .startFeeding n
    · obtain ⟨n, rfl⟩ := hmark
      simp only [exec, Option.some.injEq] at ho
      subst ho
      rcases Nat.lt_or_eq_of_le (hle n rfl) with hlt | heq
      · exact Or.inr ⟨_, List.mem_append_right _ (List.mem_singleton_self _), rfl, hlt⟩
      · exact Or.inl heq
    · have hno : ∀ n, task ≠ .startFeeding n := fun n hn => hmark ⟨n, hn⟩
      have hbefore : Fed es o.connection.session.attempt :=
        (fed_snoc.mp hfed).resolve_right (hno _)
      have hsame : o.connection.session.attempt = c.session.attempt :=
        Nat.le_antisymm (h.begun _ hbefore) hturn.attempt_le
      rw [(untouched_of_exec ho).feeding hno, hsame]
      exact (h.marker (hsame ▸ hbefore)).imp_right (·.mono _)

end Marked

section Moves

variable (device : DeviceInfo) (config : ConnectionConfig) (prober : Prober) (moves : List Move)

/-- An attempt is not ahead of the one under way, and a connected one has no stage to come. -/
theorem stage_of_moves {l : List Task} {t : Task} {n : Nat}
    (hl : l ∈ (History.of (.new device config prober) moves).machine.threads) (ht : t ∈ l)
    (hn : t.stage = some n) :
    let c := (History.of (.new device config prober) moves).machine.connection
    n ≤ c.session.attempt ∧ (c.session.state = .connected → n < c.session.attempt) := by
  intro c
  have hg := guarded_of_moves device config prober moves
  have hmem : t ∈ (History.of (.new device config prober) moves).machine.pending :=
    Multiset.mem_coe.mpr (List.mem_flatten.mpr ⟨l, hl, ht⟩)
  have hrest : t.isRest = false := by cases t <;> first | rfl | cases hn
  have htidy := hg.held (hg.rest_of_gone hmem hrest)
  have hle := htidy.early t hmem n hn
  refine ⟨hle, fun hup => Nat.lt_of_le_of_ne hle ?_⟩
  rintro rfl
  exact Multiset.countP_eq_zero.mp (htidy.quiet (Or.inr hup)) t hmem hn

theorem marked_of_moves :
    Marked (History.of (.new device config prober) moves).entries
      (History.of (.new device config prober) moves).machine.connection := by
  refine History.moves_induction (I := fun h => Marked h.entries h.machine.connection) ?_ ?_ moves
  · exact ⟨fun n ⟨_, hf, _⟩ => (List.not_mem_nil hf).elim, nofun,
      fun ⟨_, hf, _⟩ => (List.not_mem_nil hf).elim⟩
  · intro moves move e m' ih hm
    obtain ⟨source, head, ran, rfl, rfl⟩ := advances_of_move hm
    have hshape := every_source source (shaped_of_moves _ moves) shaped_of_begins _
      (List.mem_of_getElem? head)
    refine ih.step ran hshape ?_
    rintro n rfl
    obtain ⟨port, hport⟩ := hshape.behind_feeding
    rcases source with rfl | ⟨_, hb⟩
    · exact (stage_of_moves device config prober moves (List.mem_of_getElem? head)
        (List.mem_cons_of_mem _ hport) rfl).1
    · cases hb

end Moves

/-! ## The law -/

/-- A thread has come to this task for attempt `n`, and a newer attempt has begun. -/
structure Overtaken (m : Machine) (thread n : Nat) (task : Task) : Prop where
  comes : m.next? thread = some task
  drives : task.drives = some n
  newer : n < m.connection.session.attempt

/-- What older attempts leave to the newest one, which is the one of the session. -/
structure Spared (c : Connection) (moves : List Move) : Prop where
  /-- A thread that goes on for an older attempt leaves the session as it is. -/
  session : ∀ thread n task, Overtaken (History.of c moves).machine thread n task →
    ∀ more, ∀ e ∈ History.later c moves more, e.move.thread = some thread →
      e.after.session = e.before.session
  /-- It leaves the ring and the marker as they are too, unless the line parameters of its port were
  set or are yet to be set. -/
  bytes : ∀ thread n task, Overtaken (History.of c moves).machine thread n task →
    task.feeds = false → ∀ more, ∀ e ∈ History.later c moves more, e.move.thread = some thread →
      e.after.ring = e.before.ring ∧ e.after.feeding = e.before.feeding
  /-- The bytes of a connected attempt are let in, unless the marker was set for an older one
  behind it. -/
  fed : (History.of c moves).machine.connection.state = .connected →
    (History.of c moves).machine.connection.feeding =
        (History.of c moves).machine.connection.session.attempt ∨
      FedLate (History.of c moves).entries (History.of c moves).machine.connection.feeding
  /-- While an attempt is connected, only a thread of an older one can be about to empty the
  ring. -/
  kept : (History.of c moves).machine.connection.state = .connected → ∀ thread,
    (History.of c moves).machine.next? thread = some .clearRing →
      ∃ n < (History.of c moves).machine.connection.session.attempt, ∃ l,
        (History.of c moves).machine.threads[thread]? = some (.clearRing :: .startFeeding n :: l)

theorem threads_of_next {m : Machine} {thread : Nat} {task : Task}
    (h : m.next? thread = some task) : ∃ rest, m.threads[thread]? = some (task :: rest) := by
  unfold Machine.next? at h
  obtain ⟨l, hl, hh⟩ := Option.bind_eq_some_iff.mp h
  obtain ⟨rest, rfl⟩ := List.head?_eq_some_iff.mp hh
  exact ⟨rest, hl⟩

/-- The thread of an overtaken attempt has nothing to do but for that attempt. -/
theorem Overtaken.late {c : Connection} {moves : List Move} {thread n : Nat} {task : Task}
    (h : Overtaken (History.of c moves).machine thread n task) :
    ∃ l, (History.of c moves).machine.threads[thread]? = some l ∧
      ∀ u ∈ l, Late n u ∧ (task.feeds = false → u.feeds = false) := by
  obtain ⟨rest, hrest⟩ := threads_of_next h.comes
  have hresults := (shaped_of_moves c moves _ (List.mem_of_getElem? hrest)).results h.drives
  refine ⟨task :: rest, hrest, List.forall_mem_cons.mpr ⟨⟨.driving h.drives, id⟩, ?_⟩⟩
  intro u hu
  obtain ⟨r, rfl⟩ := hresults u hu
  exact ⟨.result, fun _ => rfl⟩

/-- An attempt that has ended does nothing to the session of a newer one. It also leaves the ring
and the feeding marker alone, whether the host gave it a port or not, unless the line parameters of
its port were set. -/
theorem an_overtaken_attempt_spares_the_newer_one (device : DeviceInfo) (config : ConnectionConfig)
    (prober : Prober) (moves : List Move) : Spared (.new device config prober) moves := by
  refine ⟨?_, ?_, ?_, ?_⟩
  · intro thread n task hover more
    obtain ⟨l, hl, hlate⟩ := hover.late
    rw [History.later_eq]
    exact Machine.steps_of_thread (I := fun d => n < d.session.attempt) (q := Late n)
      (P := fun e => e.after.session = e.before.session)
      (fun hd ho => Nat.lt_of_lt_of_le hd (exec_turn ho).attempt_le)
      (fun hd hl ho => ⟨(late_step ho hl hd).2, fun _ => (late_step ho hl hd).1⟩)
      hover.newer hl (fun u hu => (hlate u hu).1) more
  · intro thread n task hover hfeeds more
    obtain ⟨l, hl, hlate⟩ := hover.late
    rw [History.later_eq]
    refine Machine.steps_of_thread (I := fun d => n < d.session.attempt)
      (q := fun t => Late n t ∧ t.feeds = false)
      (P := fun e => e.after.ring = e.before.ring ∧ e.after.feeding = e.before.feeding)
      (fun hd ho => Nat.lt_of_lt_of_le hd (exec_turn ho).attempt_le) ?_ hover.newer hl
      (fun u hu => ⟨(hlate u hu).1, (hlate u hu).2 hfeeds⟩) more
    intro d x task o hd hl ho
    obtain ⟨hsame, hnext⟩ := late_bytes ho hl.1 hl.2 hd
    exact ⟨fun t ht => ⟨(late_step ho hl.1 hd).2 t ht, hnext t ht⟩, fun _ => hsame⟩
  · intro hup
    have hmarked := marked_of_moves device config prober moves
    exact hmarked.marker (hmarked.fed hup)
  · intro hup thread hnext
    obtain ⟨rest, hrest⟩ := threads_of_next hnext
    have hmem := List.mem_of_getElem? hrest
    obtain ⟨n, port, l, rfl⟩ := (shaped_of_moves _ moves _ hmem).behind_clearing
    exact ⟨n, (stage_of_moves device config prober moves hmem
      (t := .recordReader n port) (by simp) rfl).2 hup, _, hrest⟩

/-- An attempt whose line parameters are set after it was overtaken takes the ring and the feeding
marker from a newer attempt that is connected. The first attempt waits for its host while it is
disconnected and a second one comes up and reads a byte; then the byte is gone, and what the second
attempt reads next is not let in. -/
theorem an_overtaken_attempt_may_take_the_ring :
    let x : Outside :=
      { subscribe := .ok 1, permitted := true, requestPermission := .ok ()
        openPort := fun _ => .ok (), packetSize := fun _ => 64
        setParameters := fun _ _ => .ok (), write := fun _ data => .ok data.length
        read := fun _ _ => some (.ok [7]) }
    let steps (thread count : Nat) : List Move := List.replicate count (.step thread x)
    let run (moves : List Move) : Connection :=
      (History.of (.new ⟨"usb", Vendor.ftdi, 0x6001, none, none⟩ { ringCapacity := 4 } {})
        ([.call .connect x] ++ steps 0 5 ++ [.call .disconnect x] ++ steps 1 3 ++
          [.call .connect x] ++ steps 2 14 ++ steps 3 7 ++ moves)).machine.connection
    let seen (c : Connection) :=
      (c.state, c.session.attempt, c.feeding, c.ring.contents, c.totals.received)
    seen (run []) = (.connected, 2, 2, [7], 1) ∧
      seen (run (steps 0 3)) = (.connected, 2, 1, [], 1) ∧
      seen (run (steps 0 3 ++ steps 3 7)) = (.connected, 2, 1, [], 1) := by
  decide +kernel

end SerialLink.Connection
