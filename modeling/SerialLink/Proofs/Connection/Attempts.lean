-- Attempts and the tasks that bring them on their way. A task, a drain or a
-- stage of opening is for one attempt; which attempts have such work, and how
-- much of it, is known from what happened to them.
import SerialLink.Proofs.Connection.Moments
import SerialLink.Proofs.Connection.Resources

namespace SerialLink.Connection

/-! ## What brings an attempt on its way -/

/-- The attempt that a task brings on its way: by a stage of opening, by the request for its grant,
or by giving it up. -/
def Task.drives : Task → Option Nat
  | .requestPermission n | .permissionRequested n _ | .fail n _ => some n
  | t => t.stage

/-- Pending tasks that bring attempt `n` on its way. -/
def drivers (P : Multiset Task) (n : Nat) : Nat := P.countP fun t => t.drives = some n

/-- A step begins attempt `n`, or hears how its grant came out. -/
def SetsOut (c d : Connection) (n : Nat) : Prop :=
  d.session.attempt = n ∧
    (c.session.attempt < n ∨ c.session.attempt = n ∧ c.session.state = .awaitingPermission)

section Drives

variable {c : Connection} {task t : Task} {o : Outcome} {n : Nat}

theorem drivers_cons (t : Task) (P : Multiset Task) (n : Nat) :
    drivers (t ::ₘ P) n = drivers P n + if t.drives = some n then 1 else 0 :=
  Multiset.countP_cons ..

theorem drivers_add (P Q : Multiset Task) (n : Nat) :
    drivers (P + Q) n = drivers P n + drivers Q n :=
  Multiset.countP_add ..

theorem drives_of_stage (h : t.stage = some n) : t.drives = some n := by
  cases t <;> first | exact h | cases h

theorem drives_of_worker (h : t.isWorker) : t.drives = none := by
  cases t <;> first | rfl | cases h

theorem drives_of_aside (h : t.isAside) : t.drives = none := by
  cases t <;> first | rfl | cases h

theorem drives_of_release (h : t.isRelease) : t.drives = none := by
  cases t <;> first | rfl | cases h

theorem drives_of_begins {others : Multiset Task} {move : Move}
    (h : Begins c others move task) : task.drives = none := by
  cases h <;> rfl

/-- What a step leaves to be done for an attempt goes on from a task for it, unless the step sets
the attempt out. -/
theorem Turn.drives (h : Turn c task o)
    (ht : t ∈ (o.next : Multiset Task) + (o.started.flatten : Multiset Task))
    (hn : t.drives = some n) :
    SetsOut c o.connection n ∨
      task.drives = some n ∧ (t.stage = some n → task.stage = some n) := by
  have hnone : t.drives = none → SetsOut c o.connection n ∨
      task.drives = some n ∧ (t.stage = some n → task.stage = some n) := by
    intro he
    rw [he] at hn
    cases hn
  cases h with
  | worker _ _ _ hnext hs =>
    exact hnone (leaves_of_worker hnext hs (fun _ => drives_of_worker) (fun _ _ => rfl) t ht)
  | aside _ _ _ hnext hs =>
    exact hnone (leaves_of_aside (q := fun t => t.drives = none) hnext hs (fun _ _ _ => rfl) t ht)
  | failed | torn => exact hnone (leaves_of_end (fun _ => drives_of_release) rfl t ht)
  | letGo => exact hnone (leaves_of_drop (fun _ => drives_of_release) t ht)
  | failing hf =>
    cases mem_leaves_one.mp ht
    cases Option.some.inj hn
    cases hf with
    | denial _ hwait => exact Or.inl ⟨rfl, Or.inr ⟨rfl, hwait⟩⟩
    | _ => exact Or.inr ⟨rfl, fun hs => by cases hs⟩
  | @begun subscription permitted =>
    simp only [mem_leaves, List.mem_cons, List.not_mem_nil, or_false] at ht
    rcases ht with rfl | rfl | rfl | rfl
    · cases hn
    · cases hn
    · refine Or.inl ⟨?_, Or.inl ?_⟩ <;> split at hn <;> cases Option.some.inj hn
      · rfl
      · rfl
      · exact Nat.lt_succ_self _
      · exact Nat.lt_succ_self _
    · cases hn
  | granted _ hwait =>
    cases mem_leaves_one.mp ht
    exact Or.inl ⟨Option.some.inj hn, Or.inr ⟨Option.some.inj hn, hwait⟩⟩
  | opening | portRecorded | configuring | readerRecorded | requesting =>
    cases mem_leaves_one.mp ht
    exact Or.inr ⟨hn, fun hs => hs⟩
  | configured =>
    simp only [mem_leaves, List.mem_cons, List.not_mem_nil, or_false] at ht
    rcases ht with rfl | rfl | rfl
    · cases hn
    · cases hn
    · exact Or.inr ⟨hn, fun hs => hs⟩
  | readerStarted | drainStarted =>
    simp only [List.flatten_cons, List.flatten_nil, List.append_nil, Multiset.mem_add,
      Multiset.mem_coe, List.mem_singleton] at ht
    rcases ht with rfl | rfl
    · exact Or.inr ⟨hn, fun hs => hs⟩
    · cases hn
  | detached | portOrphaned | completed =>
    cases mem_leaves_one.mp ht
    cases hn
  | _ => simp at ht

/-- Of the tasks that a step leaves to be done at most one is for an attempt. -/
theorem Turn.drivers_le (h : Turn c task o) (n : Nat) :
    drivers ((o.next : Multiset Task) + (o.started.flatten : Multiset Task)) n ≤ 1 := by
  have hnone : (∀ t ∈ (o.next : Multiset Task) + (o.started.flatten : Multiset Task),
      t.drives = none) → drivers ((o.next : Multiset Task) + (o.started.flatten : Multiset Task)) n
        ≤ 1 := by
    intro hno
    have hzero : drivers ((o.next : Multiset Task) + (o.started.flatten : Multiset Task)) n = 0 :=
      Multiset.countP_eq_zero.mpr fun t ht => by simp [hno t ht]
    omega
  cases h with
  | worker _ _ _ hnext hs =>
    exact hnone (leaves_of_worker hnext hs (fun _ => drives_of_worker) (fun _ _ => rfl))
  | aside _ _ _ hnext hs => exact hnone (leaves_of_aside hnext hs (fun _ _ _ => rfl))
  | failed | torn => exact hnone (leaves_of_end (fun _ => drives_of_release) rfl)
  | letGo => exact hnone (leaves_of_drop (fun _ => drives_of_release))
  | idle | refused | notified | detached | portOrphaned | readerOrphaned | completed | drainOrphaned
    | readerStopped | unsubscribed | closed => exact hnone (by simp [Task.drives, Task.stage])
  | _ =>
    unfold drivers
    rw [Multiset.coe_add, Multiset.coe_countP]
    simp only [List.flatten_nil, List.flatten_cons, List.append_nil, List.cons_append,
      List.nil_append, List.countP_cons, List.countP_nil, Task.drives, Task.stage,
      decide_eq_true_eq, reduceCtorEq, if_false]
    split_ifs <;> omega

end Drives

/-! ## Drains and their attempts -/

section DrainAttempt

variable {c d : Connection} {task : Task} {o : Outcome} {k n : Nat}

theorem drainAttempt_congr (h : d.drains = c.drains) (k : Nat) :
    d.drainAttempt k = c.drainAttempt k := by
  unfold drainAttempt
  rw [h]

theorem drainAttempt_stopDrain (c : Connection) (drain k : Nat) :
    (c.stopDrain drain).drainAttempt k = c.drainAttempt k := by
  unfold drainAttempt stopDrain
  rw [List.getElem?_modify]
  by_cases hk : drain = k
  · rcases c.drains[k]? with _ | dr <;> simp [hk]
  · simp [hk]

theorem drainAttempt_takeResources (c : Connection) (k : Nat) :
    c.takeResources.2.drainAttempt k = c.drainAttempt k := by
  unfold takeResources
  rcases hd : c.session.resources.drain with _ | drain
  · simp only [hd]
    exact drainAttempt_congr rfl k
  · simp only [hd]
    rw [drainAttempt_stopDrain]
    exact drainAttempt_congr rfl k

theorem drainAttempt_new (c : Connection) (dr : Drain) (k : Nat) :
    ({ c with drains := c.drains ++ [dr] } : Connection).drainAttempt k =
      if k = c.drains.length then some dr.attempt else c.drainAttempt k := by
  unfold drainAttempt
  dsimp only
  by_cases hk : k = c.drains.length
  · simp [hk]
  · rw [if_neg hk]
    rcases Nat.lt_or_ge k c.drains.length with hlt | hge
    · rw [List.getElem?_append_left hlt]
    · rw [List.getElem?_eq_none (by simp; omega), List.getElem?_eq_none hge]

theorem drainAttempt_ahead (c : Connection) : c.drainAttempt c.drains.length = none := by
  simp [drainAttempt]

/-- The attempt of a drain is fixed when it is started. -/
theorem Turn.drain_attempt (h : Turn c task o) (k : Nat) :
    o.connection.drainAttempt k = c.drainAttempt k ∨
      ∃ n, task = .startDrain n ∧ k = c.drains.length ∧ o.connection.drainAttempt k = some n := by
  cases h with
  | worker _ hc | aside _ hc => exact Or.inl (drainAttempt_congr hc.drains k)
  | failed | torn | letGo => exact Or.inl (drainAttempt_takeResources c k)
  | drainOrphaned => exact Or.inl (drainAttempt_stopDrain c _ k)
  | @drainStarted n =>
    by_cases hk : k = c.drains.length
    · exact Or.inr ⟨n, rfl, hk, by rw [drainAttempt_new, if_pos hk]⟩
    · exact Or.inl (by rw [drainAttempt_new, if_neg hk])
  | _ => exact Or.inl rfl

theorem Turn.drain_attempt_stays (h : Turn c task o) (hk : c.drainAttempt k = some n) :
    o.connection.drainAttempt k = some n := by
  rcases h.drain_attempt k with he | ⟨_, _, rfl, _⟩
  · rw [he, hk]
  · rw [drainAttempt_ahead] at hk
    cases hk

/-- A drain that is about to be recorded was just started, or was about to be before. -/
theorem Turn.records (h : Turn c task o)
    (ht : .recordDrain n k ∈ (o.next : Multiset Task) + (o.started.flatten : Multiset Task)) :
    o.connection.drainAttempt k = some n := by
  have hno : ∀ P : Multiset Task, (∀ t ∈ P, t.drives = none) → .recordDrain n k ∉ P := by
    intro P hP hmem
    cases hP _ hmem
  cases h with
  | worker _ _ _ hnext hs =>
    exact absurd ht (hno _ (leaves_of_worker hnext hs (fun _ => drives_of_worker) (fun _ _ => rfl)))
  | aside _ _ _ hnext hs =>
    exact absurd ht (hno _ (leaves_of_aside hnext hs (fun _ _ _ => rfl)))
  | failed | torn =>
    exact absurd ht (hno _ (leaves_of_end (fun _ => drives_of_release) rfl))
  | letGo => exact absurd ht (hno _ (leaves_of_drop (fun _ => drives_of_release)))
  | @begun subscription permitted => cases permitted <;> simp at ht
  | @drainStarted m =>
    have he : n = m ∧ k = c.drains.length := by simpa using ht
    obtain ⟨rfl, rfl⟩ := he
    rw [drainAttempt_new, if_pos rfl]
  | _ => simp at ht

/-- A session comes to own a drain when the last stage records it, and keeps it while it keeps its
attempt. -/
theorem Turn.owned_drain {others : Multiset Task} (h : Turn c task o) (hp : Poised c others task)
    (hk : o.connection.session.resources.drain = some k) :
    c.session.resources.drain = some k ∧ o.connection.session.attempt = c.session.attempt ∨
      task = .recordDrain o.connection.session.attempt k := by
  cases h with
  | worker _ hc | aside _ hc => exact Or.inl ⟨by rw [← hc.session]; exact hk, by rw [hc.session]⟩
  | failed | torn => simp at hk
  | letGo => simp at hk
  | begun hs =>
    rw [hp.at_rest hs] at hk
    cases hk
  | completed hc =>
    obtain ⟨rfl, _⟩ := (isConnecting_iff _ _).mp hc
    exact Or.inr (by rw [Option.some.inj hk])
  | _ => exact Or.inl ⟨hk, rfl⟩

end DrainAttempt

/-! ## What every step keeps -/

/-- What is known of the attempts of a connection from what happened to them. -/
structure Traced (es : List Entry) (c : Connection) (P : Multiset Task) : Prop where
  tally : ∀ n, Tally es c.session n
  /-- No task and no drain is for an attempt that has not begun. -/
  early : ∀ t ∈ P, ∀ n, t.drives = some n → 1 ≤ n ∧ n ≤ c.session.attempt
  begun : ∀ k n, c.drainAttempt k = some n → 1 ≤ n ∧ n ≤ c.session.attempt
  recorded : ∀ n k, .recordDrain n k ∈ P → c.drainAttempt k = some n
  owned : ∀ k, c.session.resources.drain = some k → c.drainAttempt k = some c.session.attempt
  /-- An attempt that came up has no stage to come. -/
  up : ∀ n, 0 < changes es n .connected → stages P n = 0
  /-- An attempt that does not wait for its grant is brought on its way by one task at a time. -/
  alone : ∀ n, .waits ∉ moments es n → drivers P n ≤ 1
  waiting : c.session.state = .awaitingPermission → .waits ∈ moments es c.session.attempt

section Traced

variable {es : List Entry} {c : Connection} {others : Multiset Task} {task : Task} {o : Outcome}
  {move : Move} {x : Outside}

theorem Turn.attempt_le (h : Turn c task o) :
    c.session.attempt ≤ o.connection.session.attempt := by
  rcases h.change with hk | hch
  · exact Nat.le_of_eq hk.2.symm
  · cases hch <;> omega

theorem Tally.step {e : Entry} {n : Nat} (ht : Tally es e.before.session n)
    (h : Keeps e.before.session e.after.session ∨
      Change e.before.session e.task e.after.session) : Tally (es ++ [e]) e.after.session n := by
  rcases h with hk | hch
  · exact tally_keeps ht hk
  · exact tally_change rfl rfl ht hch

/-- A new thread begins with no task for an attempt. -/
theorem Traced.begin (h : Traced es c others) (hb : Begins c others move task) :
    Traced es c (task ::ₘ others) := by
  have hd := drives_of_begins hb
  have hno : ∀ {t n}, t ∈ task ::ₘ others → t.drives = some n → t ∈ others := by
    intro t n ht hn
    rcases Multiset.mem_cons.mp ht with rfl | ht
    · rw [hd] at hn
      cases hn
    · exact ht
  refine ⟨h.tally, fun t ht n hn => h.early t (hno ht hn) n hn, h.begun,
    fun n k ht => h.recorded n k (hno ht rfl), h.owned, ?_, ?_, h.waiting⟩
  · intro n hn
    rw [stages_cons, hb.stage, h.up n hn]
    simp
  · intro n hn
    rw [drivers_cons, hd]
    simpa using h.alone n hn

/-- No attempt sets out that came up before. -/
theorem Traced.not_up {d : Connection} {P : Multiset Task} {n : Nat} (h : Traced es c P)
    (hs : SetsOut c d n) : changes es n .connected = 0 := by
  rcases hs.2 with hlt | ⟨rfl, hwait⟩
  · exact (h.tally n).not_begun hlt
  · exact (h.tally _).not_up rfl (Or.inl hwait)

/-- No task is for an attempt yet that sets out now without having waited for its grant. -/
theorem Traced.none_yet {d : Connection} {P : Multiset Task} {n : Nat} (h : Traced es c P)
    (hs : SetsOut c d n) (hw : .waits ∉ moments es n) : drivers P n = 0 := by
  rcases hs.2 with hlt | ⟨rfl, hwait⟩
  · refine Multiset.countP_eq_zero.mpr fun t ht hn => ?_
    have := h.early t ht n hn
    omega
  · exact absurd (h.waiting hwait) hw

/-- Only the last stage of opening makes an attempt connected. -/
theorem Turn.completes {n : Nat} (h : Turn c task o)
    (hd : due c.session o.connection.session = some (n, .connected)) :
    ∃ k, task = .recordDrain n k ∧ c.isConnecting n := by
  rcases h.change with hk | hch
  · rw [due_same _ _ hk] at hd
    cases hd
  · rw [due_change hch] at hd
    cases hch with
    | begun hs => rcases hs with hs | hs <;> rw [hs] at hd <;> cases hd
    | granted hs hs' => rw [hs, hs'] at hd; cases hd
    | failed hs hs' => rcases hs with hs | hs <;> rw [hs, hs'] at hd <;> cases hd
    | ended hs hs' => rcases hs with hs | hs | hs <;> rw [hs, hs'] at hd <;> cases hd
    | @completed _ k hs hs' =>
      rw [hs, hs'] at hd
      cases hd
      exact ⟨k, rfl, (isConnecting_iff _ _).mpr ⟨rfl, hs⟩⟩

theorem waits_of_begun {e : Entry} (hd : due e.before.session e.after.session =
      some (e.after.session.attempt, .connecting))
    (hs : e.after.session.state = .awaitingPermission) :
    .waits ∈ e.change e.after.session.attempt := by
  unfold Entry.change
  rw [hd, hs]
  simp

/-- An attempt that has come up has no stage to come, and neither has one that comes up now. -/
theorem Traced.still_up (ho : c.exec x task = some o) (hp : Poised c others task)
    (h : Traced es c (task ::ₘ others)) (n : Nat)
    (hn : 0 < changes (es ++ [⟨move, c, task, o.effects, o.connection⟩]) n .connected) :
    stages ((o.next : Multiset Task) + (o.started.flatten : Multiset Task) + others) n = 0 := by
  have hturn := exec_turn ho
  rw [changes_snoc] at hn
  rw [stages_add]
  by_cases hup : 0 < changes es n .connected
  · have hnone := h.up n hup
    rw [stages_cons] at hnone
    have hnext : stages ((o.next : Multiset Task) + (o.started.flatten : Multiset Task)) n = 0 := by
      refine Multiset.countP_eq_zero.mpr fun t ht hs => ?_
      rcases hturn.drives ht (drives_of_stage hs) with hout | ⟨_, hstage⟩
      · rw [h.not_up hout] at hup
        cases hup
      · rw [if_pos (hstage hs)] at hnone
        cases hnone
    omega
  · have hdue : due c.session o.connection.session = some (n, .connected) := by
      by_contra hno
      rw [if_neg hno] at hn
      exact hup hn
    obtain ⟨k, rfl, hc⟩ := hturn.completes hdue
    obtain ⟨rfl, hstate⟩ := (isConnecting_iff _ _).mp hc
    have hone := (hp.tidy rfl (by simp)).one hstate
    rw [stages_cons, Task.stage, if_pos rfl] at hone
    have hnext : stages ((o.next : Multiset Task) + (o.started.flatten : Multiset Task))
        c.session.attempt = 0 := by
      rw [exec, stepRecordDrain, if_pos hc, Option.some.injEq] at ho
      rw [← ho]
      rfl
    omega

/-- No step leaves a second task for an attempt that does not wait for its grant. -/
theorem Traced.still_alone (ho : c.exec x task = some o) (h : Traced es c (task ::ₘ others))
    (n : Nat)
    (hw : .waits ∉ moments (es ++ [⟨move, c, task, o.effects, o.connection⟩]) n) :
    drivers ((o.next : Multiset Task) + (o.started.flatten : Multiset Task) + others) n ≤ 1 := by
  have hturn := exec_turn ho
  rw [moments_snoc, List.mem_append, not_or] at hw
  have hbefore := h.alone n hw.1
  have hnext := hturn.drivers_le n
  rw [drivers_add]
  rw [drivers_cons] at hbefore
  by_cases htask : task.drives = some n
  · rw [if_pos htask] at hbefore
    omega
  · rw [if_neg htask] at hbefore
    by_cases hs : SetsOut c o.connection n
    · have := h.none_yet hs hw.1
      rw [drivers_cons, if_neg htask] at this
      omega
    · have hzero :
          drivers ((o.next : Multiset Task) + (o.started.flatten : Multiset Task)) n = 0 := by
        refine Multiset.countP_eq_zero.mpr fun t ht hn => ?_
        rcases hturn.drives ht hn with hout | ⟨hd, _⟩
        · exact hs hout
        · exact htask hd
      omega

/-- What a step leaves to be done is for an attempt that has begun. -/
theorem Traced.still_early (ho : c.exec x task = some o) (h : Traced es c (task ::ₘ others))
    {t : Task} {n : Nat}
    (ht : t ∈ (o.next : Multiset Task) + (o.started.flatten : Multiset Task) + others)
    (hn : t.drives = some n) : 1 ≤ n ∧ n ≤ o.connection.session.attempt := by
  have hturn := exec_turn ho
  have hle := hturn.attempt_le
  rcases Multiset.mem_add.mp ht with ht | ht
  · rcases hturn.drives ht hn with ⟨rfl, hlt | ⟨he, hwait⟩⟩ | ⟨htask, _⟩
    · exact ⟨by omega, Nat.le_refl _⟩
    · have := (h.tally 0).live_pos (by rw [hwait]; rfl)
      exact ⟨by omega, Nat.le_refl _⟩
    · have := h.early task (Multiset.mem_cons_self _ _) n htask
      omega
  · have := h.early t (Multiset.mem_cons_of_mem ht) n hn
    omega

/-- An attempt that waits for its grant has begun to, before this step or with it. -/
theorem Traced.still_waiting (ho : c.exec x task = some o) (h : Traced es c (task ::ₘ others))
    (hwait : o.connection.session.state = .awaitingPermission) :
    .waits ∈ moments (es ++ [⟨move, c, task, o.effects, o.connection⟩])
      o.connection.session.attempt := by
  rw [moments_snoc, List.mem_append]
  rcases (exec_turn ho).change with hk | hch
  · rw [hk.2]
    exact Or.inl (h.waiting (hk.1.symm.trans hwait))
  · right
    rw [Entry.moments, List.mem_append, List.mem_append]
    refine Or.inr (Or.inr ?_)
    refine waits_of_begun (e := ⟨move, c, task, o.effects, o.connection⟩) ?_ hwait
    dsimp only
    rw [due_change hch]
    cases hch with
    | begun hs _ ha => rw [(not_isLive_iff _).mpr hs, ha]
    | granted _ hs' | failed _ hs' | completed _ hs' | ended _ hs' =>
      rw [hwait] at hs'
      cases hs'

theorem Traced.step (ho : c.exec x task = some o) (hp : Poised c others task)
    (h : Traced es c (task ::ₘ others)) :
    Traced (es ++ [⟨move, c, task, o.effects, o.connection⟩]) o.connection
      ((o.next : Multiset Task) + (o.started.flatten : Multiset Task) + others) := by
  have hturn := exec_turn ho
  have hle := hturn.attempt_le
  have htally := fun n =>
    (h.tally n).step (e := ⟨move, c, task, o.effects, o.connection⟩) hturn.change
  refine ⟨htally, fun t ht n hn => h.still_early ho ht hn, ?_, ?_, ?_, h.still_up ho hp,
    h.still_alone ho, h.still_waiting ho⟩
  · intro k n hk
    rcases hturn.drain_attempt k with he | ⟨m, rfl, _, he⟩
    · have := h.begun k n (he ▸ hk)
      omega
    · have := h.early _ (Multiset.mem_cons_self _ _) m rfl
      rw [he, Option.some.injEq] at hk
      omega
  · intro n k ht
    rcases Multiset.mem_add.mp ht with ht | ht
    · exact hturn.records ht
    · exact hturn.drain_attempt_stays (h.recorded n k (Multiset.mem_cons_of_mem ht))
  · intro k hk
    rcases hturn.owned_drain hp hk with ⟨hown, he⟩ | rfl
    · rw [he]
      exact hturn.drain_attempt_stays (h.owned k hown)
    · exact hturn.drain_attempt_stays (h.recorded _ k (Multiset.mem_cons_self _ _))

end Traced

theorem traced_of_moves (device : DeviceInfo) (config : ConnectionConfig) (prober : Prober)
    (moves : List Move) :
    Traced (History.of (.new device config prober) moves).entries
      (History.of (.new device config prober) moves).machine.connection
      (History.of (.new device config prober) moves).machine.pending := by
  refine (History.guarded_induction (I := Traced) ?_ ?_ moves).1
  · refine ⟨fun n => tally_of_lawful .start rfl n, by simp, ?_, by simp, ?_,
      fun _ _ => stages_zero _, fun _ _ => Nat.zero_le _, ?_⟩
    · intro k n hk
      cases hk
    · intro k hk
      cases hk
    · intro h
      cases h
  · intro es c others task move x o ho hp hsource
    rcases hsource with h | ⟨h, hb⟩
    · exact h.step ho hp
    · exact (h.begin hb).step ho hp

/-- Only a session that is connected owns a drain. -/
theorem connected_of_drain {s : Session} {k : Nat} (h : Owns s) (hk : s.resources.drain = some k) :
    s.state = .connected := by
  unfold Owns at h
  cases hs : s.state <;> rw [hs] at h
  · rw [h] at hk
    cases hk
  · obtain ⟨i, hi⟩ := h
    rw [hi] at hk
    cases hk
  · obtain ⟨i, reader, port, hi⟩ := h
    rw [hi] at hk
    cases hk
  · rw [h] at hk
    cases hk

/-- A drain of an attempt that came up runs only until the attempt is over. -/
theorem Traced.runs_while_up {es : List Entry} {c : Connection} {P : Multiset Task} {k n : Nat}
    (h : Traced es c P) (hg : Guarded c P) (hr : RunsOwned c P k) (hrun : c.drainRuns k = true)
    (hk : c.drainAttempt k = some n) (hup : 0 < changes es n .connected) :
    changes es n .disconnected = 0 := by
  -- No thread is about to record the drain: that would be a stage of an attempt that came up.
  have hawait : awaiting P k = 0 := by
    refine Multiset.countP_eq_zero.mpr fun t ht ha => ?_
    cases t <;> simp only [Task.awaits, Bool.false_eq_true] at ha
    case recordDrain m d =>
      rw [beq_iff_eq] at ha
      subst ha
      have hm := h.recorded m d ht
      rw [hk, Option.some.injEq] at hm
      subst hm
      exact Multiset.countP_eq_zero.mp (h.up n hup) _ ht rfl
  have hown : c.session.resources.drain = some k := by
    by_contra hno
    rw [RunsOwned, hawait, if_pos hrun, if_neg hno] at hr
    omega
  have hn := h.owned k hown
  rw [hk, Option.some.injEq] at hn
  have held : c.dropped = false := by
    apply eq_false_of_ne_true
    intro hd
    rw [(hg.gone hd).empty] at hown
    cases hown
  have hstate := connected_of_drain (hg.held held).owns hown
  have hended := (h.tally n).ended
  rw [if_neg] at hended
  · omega
  · rw [hstate, hn]
    simp [ConnectionState.isLive]

end SerialLink.Connection
