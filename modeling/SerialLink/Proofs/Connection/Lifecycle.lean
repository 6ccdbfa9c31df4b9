-- The lifecycle of a connection. Whatever is called, heard and reported, and
-- in whatever order the threads go, the session changes only in the ways that
-- `Change` lists, and each change is told by its one callback: a callback that
-- was not made yet is a task that some thread has yet to do.
import SerialLink.Proofs.Connection.Turn

namespace SerialLink.Connection

/-! ## The changes of a session -/

/-- A change of state, and the task that makes it. An attempt begins in rest or after a failure
only, and its number is the next one. -/
inductive Change (s : Session) : Task → Session → Prop
  | begun {s' : Session} (h : s.state = .disconnected ∨ s.state = .failed)
    (h' : s'.state = .awaitingPermission ∨ s'.state = .connecting)
    (ha : s'.attempt = s.attempt + 1) : Change s .connect s'
  | granted {s' : Session} (h : s.state = .awaitingPermission) (h' : s'.state = .connecting)
    (ha : s'.attempt = s.attempt) : Change s (.handle .permissionGranted) s'
  | failed {s' : Session} {e : ConnectionError}
    (h : s.state = .awaitingPermission ∨ s.state = .connecting) (h' : s'.state = .failed)
    (ha : s'.attempt = s.attempt) : Change s (.fail s.attempt e) s'
  | completed {s' : Session} {drain : Nat} (h : s.state = .connecting)
    (h' : s'.state = .connected) (ha : s'.attempt = s.attempt) :
    Change s (.recordDrain s.attempt drain) s'
  | ended {s' : Session} {a : Option Nat}
    (h : s.state = .awaitingPermission ∨ s.state = .connecting ∨ s.state = .connected)
    (h' : s'.state = .disconnected) (ha : s'.attempt = s.attempt)
    (hn : a = none ∨ a = some s.attempt) : Change s (.teardown a) s'

/-- State and attempt are as they were. -/
def Keeps (s s' : Session) : Prop := s'.state = s.state ∧ s'.attempt = s.attempt

theorem isLive_iff (s : ConnectionState) :
    s.isLive = true ↔ s = .awaitingPermission ∨ s = .connecting ∨ s = .connected := by
  cases s <;> simp [ConnectionState.isLive]

theorem not_isLive_iff (s : ConnectionState) :
    s.isLive = false ↔ s = .disconnected ∨ s = .failed := by
  cases s <;> simp [ConnectionState.isLive]

theorem isConnecting_iff (c : Connection) (n : Nat) :
    c.isConnecting n = true ↔ c.session.attempt = n ∧ c.session.state = .connecting := by
  simp [isConnecting]

theorem Turn.change {c : Connection} {task : Task} {o : Outcome} (h : Turn c task o) :
    Keeps c.session o.connection.session ∨ Change c.session task o.connection.session := by
  cases h with
  | worker _ hc => exact Or.inl (by rw [hc.session]; exact ⟨rfl, rfl⟩)
  | aside _ hc => exact Or.inl (by rw [hc.session]; exact ⟨rfl, rfl⟩)
  | begun h =>
    refine Or.inr (.begun ((not_isLive_iff _).mp h) ?_ rfl)
    dsimp only
    split <;> simp
  | granted _ h => exact Or.inr (.granted h rfl rfl)
  | completed h =>
    obtain ⟨rfl, hs⟩ := (isConnecting_iff _ _).mp h
    exact Or.inr (.completed hs rfl rfl)
  | failed hn h =>
    subst hn
    exact Or.inr (.failed h (by simp) (by simp))
  | @torn a ha h =>
    refine Or.inr (.ended ((isLive_iff _).mp h) (by simp) (by simp) ?_)
    cases a with
    | none => exact Or.inl rfl
    | some n => exact Or.inr (congrArg some ha)
  | letGo => exact Or.inl ⟨by simp, by simp⟩
  | _ => exact Or.inl ⟨rfl, rfl⟩

/-! ## Where the tasks that change a session come from -/

/-- One stage of opening leads to the next when it has gone well. -/
inductive Leads (n : Nat) : Task → Task → Prop
  | opening {kind : DriverKind} {answer : Except PortError Unit} :
    Leads n (.openPort n) (.portOpened n kind answer)
  | opened {kind : DriverKind} {port : Nat} :
    Leads n (.portOpened n kind (.ok ())) (.setParameters n kind port)
  | configuring {kind : DriverKind} {port : Nat} {answer : Except PortError Unit} :
    Leads n (.setParameters n kind port) (.parametersSet n port answer)
  | configured {port : Nat} : Leads n (.parametersSet n port (.ok ())) (.recordReader n port)
  | recorded {port number : Nat} : Leads n (.recordReader n port) (.startReader n number)
  | reading {number : Nat} : Leads n (.startReader n number) (.startDrain n)
  | draining {drain : Nat} : Leads n (.startDrain n) (.recordDrain n drain)

/-- All stages before this one have been gone through for attempt `n`, which a call or a grant
took to the first. -/
inductive Staged (earlier : List Entry) (n : Nat) : Task → Prop
  | first {f : Entry} (hf : f ∈ earlier)
    (ht : f.task = .connect ∨ f.task = .handle .permissionGranted)
    (hn : f.after.session.attempt = n) : Staged earlier n (.openPort n)
  | next {f : Entry} {t : Task} (hf : f ∈ earlier) (hs : Staged earlier n f.task)
    (hl : Leads n f.task t) : Staged earlier n t

theorem Staged.mono {earlier : List Entry} {n : Nat} {t : Task} (h : Staged earlier n t)
    (e : Entry) : Staged (earlier ++ [e]) n t := by
  induction h with
  | first hf ht hn => exact .first (List.mem_append_left _ hf) ht hn
  | next hf _ hl ih => exact .next (List.mem_append_left _ hf) ih hl

theorem Leads.stage {n : Nat} {t t' : Task} (h : Leads n t t') :
    t.stage = some n ∧ t'.stage = some n := by
  cases h <;> exact ⟨rfl, rfl⟩

/-- What brought a task about that changes a session: a call, an event or a report that it begins
with, or an earlier step. -/
inductive Cause (device : DeviceInfo) (earlier : List Entry) : Move → Task → Prop
  | connect {x : Outside} : Cause device earlier (.call .connect x) .connect
  | disconnect {x : Outside} : Cause device earlier (.call .disconnect x) (.teardown none)
  | event {event : DeviceEvent} {x : Outside} (own : event.deviceId = device.identifier) :
    Cause device earlier (.event event x) (.handle event.kind)
  | report {n : Nat} {x : Outside} : Cause device earlier (.readError n x) (.teardown (some n))
  | detached {move : Move} {f : Entry} (hf : f ∈ earlier) (ht : f.task = .handle .detached) :
    Cause device earlier move (.teardown none)
  | readFailed {move : Move} {f : Entry} {number n : Nat} {e : PortError} (hf : f ∈ earlier)
    (ht : f.task = .read number (.telling n e)) : Cause device earlier move (.teardown (some n))
  | failing {move : Move} {f : Entry} {n : Nat} {e : ConnectionError} (hf : f ∈ earlier)
    (ht : Fails f.before f.task n e) : Cause device earlier move (.fail n e)
  | staged {move : Move} {n drain : Nat} (h : Staged earlier n (.recordDrain n drain)) :
    Cause device earlier move (.recordDrain n drain)

/-- The earlier steps that a pending task comes from, where it is one that changes a session or
leads up to a change. -/
def Sourced (earlier : List Entry) : Task → Prop
  | .connect | .handle _ => False
  | .teardown none => ∃ f ∈ earlier, f.task = .handle .detached
  | .teardown (some n) => ∃ f ∈ earlier, ∃ number e, f.task = .read number (.telling n e)
  | .fail n e => ∃ f ∈ earlier, Fails f.before f.task n e
  | t => ∀ n, t.stage = some n → Staged earlier n t

theorem Sourced.staged {earlier : List Entry} {t : Task} (h : Sourced earlier t) {n : Nat}
    (hn : t.stage = some n) : Staged earlier n t := by
  cases t <;> first | exact h n hn | cases hn

theorem sourced_of_staged {earlier : List Entry} {t : Task} {n : Nat} (hn : t.stage = some n)
    (h : Staged earlier n t) : Sourced earlier t := by
  have hall : ∀ m, t.stage = some m → Staged earlier m t := by
    intro m hm
    rw [hn, Option.some.injEq] at hm
    exact hm ▸ h
  cases t <;> first | exact hall | cases hn

theorem Sourced.mono {earlier : List Entry} {t : Task} (h : Sourced earlier t) (e : Entry) :
    Sourced (earlier ++ [e]) t := by
  unfold Sourced at h ⊢
  split at h
  · exact h
  · exact h
  · obtain ⟨f, hf, ht⟩ := h
    exact ⟨f, List.mem_append_left _ hf, ht⟩
  · obtain ⟨f, hf, ht⟩ := h
    exact ⟨f, List.mem_append_left _ hf, ht⟩
  · obtain ⟨f, hf, ht⟩ := h
    exact ⟨f, List.mem_append_left _ hf, ht⟩
  · exact fun n hn => (h n hn).mono e

theorem sourced_of_worker {earlier : List Entry} {t : Task} (h : t.isWorker) :
    Sourced earlier t := by
  cases t <;> simp [Task.isWorker] at h <;> simp [Sourced, Task.stage]

theorem sourced_releaseTasks {earlier : List Entry} {r : Resources} {t : Task}
    (h : t ∈ releaseTasks r) : Sourced earlier t := by
  rcases mem_releaseTasks.mp h with ⟨n, _, rfl | rfl⟩ | ⟨n, _, rfl⟩ | ⟨n, _, rfl⟩ <;>
    simp [Sourced, Task.stage]

/-- What a step leaves to be done comes from it or from none of the sources. -/
theorem Turn.sourced {c : Connection} {task : Task} {o : Outcome} (h : Turn c task o)
    {earlier : List Entry} {e : Entry} (hb : e.before = c) (ht : e.task = task)
    (ha : e.after = o.connection) (hstaged : ∀ n, task.stage = some n → Staged earlier n task)
    (t : Task) (hmem : t ∈ o.next ∨ t ∈ o.started.flatten) : Sourced (earlier ++ [e]) t := by
  have hlast : e ∈ earlier ++ [e] := by simp
  -- The stage that the step stands for leads to the one that it leaves behind.
  have hleads : ∀ {n t}, Leads n task t → Sourced (earlier ++ [e]) t := by
    intro n t hl
    have hself := (hstaged n hl.stage.1).mono e
    rw [← ht] at hself hl
    exact sourced_of_staged hl.stage.2 (.next hlast hself hl)
  cases h with
  | worker _ _ _ hn hs =>
    rcases hmem with hm | hm
    · rcases hn t hm with hw | ⟨number, n, err, _, htask, rfl⟩
      · exact sourced_of_worker hw
      · exact ⟨e, hlast, number, err, ht.trans htask⟩
    · simp [hs] at hm
  | aside _ _ _ hn hs =>
    rcases hmem with hm | hm
    · obtain ⟨data, port, _, rfl⟩ := hn t hm
      simp [Sourced, Task.stage]
    · simp [hs] at hm
  | failing hf =>
    simp only [List.mem_singleton, List.flatten_nil, List.not_mem_nil, or_false] at hmem
    subst hmem
    exact ⟨e, hlast, by rw [hb, ht]; exact hf⟩
  | detached =>
    simp only [List.mem_singleton, List.flatten_nil, List.not_mem_nil, or_false] at hmem
    subst hmem
    exact ⟨e, hlast, ht⟩
  | begun =>
    simp only [List.mem_cons, List.flatten_nil, List.not_mem_nil, or_false] at hmem
    rcases hmem with rfl | rfl | rfl | rfl
    · simp [Sourced, Task.stage]
    · simp [Sourced, Task.stage]
    · split
      · exact sourced_of_staged rfl (.first hlast (Or.inl ht) (by rw [ha]))
      · simp [Sourced, Task.stage]
    · simp [Sourced, Task.stage]
  | granted =>
    simp only [List.mem_singleton, List.flatten_nil, List.not_mem_nil, or_false] at hmem
    subst hmem
    exact sourced_of_staged rfl (.first hlast (Or.inr ht) (by rw [ha]))
  | opening =>
    simp only [List.mem_singleton, List.flatten_nil, List.not_mem_nil, or_false] at hmem
    exact hmem ▸ hleads .opening
  | portRecorded =>
    simp only [List.mem_singleton, List.flatten_nil, List.not_mem_nil, or_false] at hmem
    exact hmem ▸ hleads .opened
  | configuring =>
    simp only [List.mem_singleton, List.flatten_nil, List.not_mem_nil, or_false] at hmem
    exact hmem ▸ hleads .configuring
  | configured =>
    simp only [List.mem_cons, List.flatten_nil, List.not_mem_nil, or_false] at hmem
    rcases hmem with rfl | rfl | rfl
    · simp [Sourced, Task.stage]
    · simp [Sourced, Task.stage]
    · exact hleads .configured
  | readerRecorded =>
    simp only [List.mem_singleton, List.flatten_nil, List.not_mem_nil, or_false] at hmem
    exact hmem ▸ hleads .recorded
  | readerStarted =>
    simp only [List.mem_singleton, List.flatten_cons, List.flatten_nil, List.append_nil] at hmem
    rcases hmem with rfl | rfl
    · exact hleads .reading
    · exact sourced_of_worker rfl
  | drainStarted =>
    simp only [List.mem_singleton, List.flatten_cons, List.flatten_nil, List.append_nil] at hmem
    rcases hmem with rfl | rfl
    · exact hleads .draining
    · exact sourced_of_worker rfl
  | failed _ _ =>
    simp only [List.mem_append, List.mem_singleton, List.flatten_nil, List.not_mem_nil,
      or_false] at hmem
    rcases hmem with hm | rfl
    · exact sourced_releaseTasks hm
    · simp [Sourced, Task.stage]
  | torn _ _ =>
    simp only [List.mem_append, List.mem_singleton, List.flatten_nil, List.not_mem_nil,
      or_false] at hmem
    rcases hmem with hm | rfl
    · exact sourced_releaseTasks hm
    · simp [Sourced, Task.stage]
  | letGo =>
    simp only [List.flatten_nil, List.not_mem_nil, or_false] at hmem
    exact sourced_releaseTasks hmem
  | portOrphaned | completed | requesting =>
    simp only [List.mem_singleton, List.flatten_nil, List.not_mem_nil, or_false] at hmem
    subst hmem
    simp [Sourced, Task.stage]
  | _ => simp at hmem

/-- Entries that lead from a connection to another, each beginning where the one before it ended:
a step keeps state and attempt, or makes a change that has its cause. -/
inductive Lawful (c : Connection) : List Entry → Connection → Prop
  | start : Lawful c [] c
  | next {earlier : List Entry} {e : Entry} (h : Lawful c earlier e.before)
    (he : Keeps e.before.session e.after.session ∨
      Change e.before.session e.task e.after.session ∧
        Cause e.before.device earlier e.move e.task) :
    Lawful c (earlier ++ [e]) e.after

theorem cause_of_pending {device : DeviceInfo} {earlier : List Entry} {move : Move} {task : Task}
    {s s' : Session} (h : Change s task s') (hs : Sourced earlier task) :
    Cause device earlier move task := by
  cases h with
  | begun => exact hs.elim
  | granted => exact hs.elim
  | failed =>
    obtain ⟨f, hf, ht⟩ := hs
    exact .failing hf ht
  | completed => exact .staged (hs.staged rfl)
  | ended _ _ _ hn =>
    rcases hn with rfl | rfl
    · obtain ⟨f, hf, ht⟩ := hs
      exact .detached hf ht
    · obtain ⟨f, hf, number, e, ht⟩ := hs
      exact .readFailed hf ht

/-- No thread begins in the middle of opening. -/
theorem Begins.stage {c : Connection} {others : Multiset Task} {move : Move} {task : Task}
    (h : Begins c others move task) : task.stage = none := by
  cases h <;> rfl

theorem cause_of_begins {c : Connection} {others : Multiset Task} {earlier : List Entry}
    {move : Move} {task : Task} {s s' : Session} (h : Change s task s')
    (hb : Begins c others move task) :
    Cause c.device earlier move task := by
  cases hb with
  | connect => exact .connect
  | disconnect => exact .disconnect
  | write => cases h
  | drop => cases h
  | event own => exact .event own
  | readError => exact .report

theorem lawful_of_moves (c : Connection) (moves : List Move) :
    Lawful c (History.of c moves).entries (History.of c moves).machine.connection ∧
      ∀ t ∈ (History.of c moves).machine.pending, Sourced (History.of c moves).entries t := by
  refine History.of_induction (I := fun es d P => Lawful c es d ∧ ∀ t ∈ P, Sourced es t)
    ⟨.start, by simp⟩ ?_ moves
  intro es d others task move x o ho hsource
  have hturn := exec_turn ho
  have hlaw : Lawful c es d := by rcases hsource with h | h; exacts [h.1, h.1.1]
  have hothers : ∀ t ∈ others, Sourced es t := by
    rcases hsource with h | h
    · exact fun t ht => h.2 t (Multiset.mem_cons_of_mem ht)
    · exact h.1.2
  have hstaged : ∀ n, task.stage = some n → Staged es n task := by
    rcases hsource with h | h
    · exact fun n hn => (h.2 task (Multiset.mem_cons_self _ _)).staged hn
    · exact fun n hn => by rw [h.2.stage] at hn; cases hn
  constructor
  · refine Lawful.next (e := ⟨move, d, task, o.effects, o.connection⟩) hlaw ?_
    rcases hturn.change with hk | hch
    · exact Or.inl hk
    · refine Or.inr ⟨hch, ?_⟩
      rcases hsource with h | h
      · exact cause_of_pending hch (h.2 task (Multiset.mem_cons_self _ _))
      · exact cause_of_begins hch h.2
  · intro t ht
    simp only [Multiset.mem_add, Multiset.mem_coe] at ht
    rcases ht with ht | ht
    · exact hturn.sourced rfl rfl rfl hstaged t ht
    · exact (hothers t ht).mono _

end SerialLink.Connection
