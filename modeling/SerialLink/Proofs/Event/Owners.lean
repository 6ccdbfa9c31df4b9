-- Which attempt a subscription belongs to. Each number is given out once, so a
-- subscription has one attempt that made it; while it is live its connection
-- owns it or has yet to end it.
import SerialLink.Proofs.Event.Courses

namespace SerialLink.Connection

open World (Act Step)

/-! ## What an act does -/

/-- A step as it stands in a course: what it is on the machine of its connection, and what it is on
the source. -/
structure Took (w : World) (s : Step) (m m' : Machine) : Prop where
  machine : w.machines[s.connection]? = some m
  makes : ∃ move, Makes m move ⟨move, m.connection, s.task, s.effects, m'.connection⟩ m'
  machines : s.after.machines = w.machines.set s.connection m'
  source : Heeds w.events.subscribers s.after.events.subscribers s.connection
    m'.connection.device.identifier s.effects
  /-- A call starts its thread, and then the step is taken. -/
  started : World.Started w s.before
  head : (s.before.thread? s.connection s.thread).bind List.head? = some s.task
  taken : ∃ x, s.before.step s.connection s.thread x = some (s.effects, s.after)

namespace Course

/-- What an act does, case by case. -/
inductive Does (r : Course) : Course → Prop
  | nothing : Does r r
  | added {device : DeviceInfo} {config : ConnectionConfig} {prober : Prober} :
    Does r { r with world := (r.world.add (.new device config prober)).2 }
  | emitted {event : DeviceEvent} : Does r { r with world := (r.world.emit event).2 }
  | stepped {s : Step} {m m' : Machine} (took : Took r.world s m m') :
    Does r { steps := r.steps ++ [s], world := s.after }

theorem enter_of_step {m m' : Machine} {thread : Nat} {x : Outside} {effects : List Effect}
    {task : Task} (move : Move) (hhead : m.next? thread = some task)
    (hstep : m.step thread x = some (effects, m')) :
    m.enter move thread x = some (⟨move, m.connection, task, effects, m'.connection⟩, m') := by
  unfold Machine.enter
  rw [hhead, hstep]

theorem head_of_next {w : World} {n thread : Nat} {m : Machine} (hm : w.machines[n]? = some m) :
    (w.thread? n thread).bind List.head? = m.next? thread := by
  unfold World.thread? Machine.next?
  rw [hm, Option.bind_some]

theorem does_step (r : Course) (n thread : Nat) (x : Outside) : Does r (r.step n thread x) := by
  unfold step
  split
  · rename_i task effects after htask hstep
    obtain ⟨m, m', task', hm⟩ := World.moves_of_step hstep
    obtain rfl : task = task' :=
      Option.some.inj (htask.symm.trans ((head_of_next hm.machine).trans hm.head))
    have hmove : m.move (.step thread (r.world.numbered x)) = some (_, m') :=
      enter_of_step _ hm.head hm.taken
    exact .stepped (s := ⟨n, thread, r.world, task, effects, after⟩)
      ⟨hm.machine, ⟨_, makes_of_move hmove⟩, hm.machines, hm.source, .refl _, htask, x, hstep⟩
  · exact .nothing

theorem spawn_eq {w : World} {n : Nat} {m : Machine} (hm : w.machines[n]? = some m)
    (tasks : List Task) :
    (w.spawn n tasks).2 = { w with machines := w.machines.set n (m.spawn tasks).2 } := by
  unfold World.spawn
  rw [hm]

/-- A call need not wait with its first step. -/
theorem exec_of_call (c : Connection) (call : Call) (x : Outside) :
    ∃ task o, call.tasks = [task] ∧ c.exec x task = some o := by
  cases call <;> exact ⟨_, _, rfl, rfl⟩

theorem step_of_machine {w : World} {n thread : Nat} {x : Outside} {m m' : Machine}
    {effects : List Effect} (hm : w.machines[n]? = some m)
    (h : m.step thread (w.numbered x) = some (effects, m')) :
    ∃ after, w.step n thread x = some (effects, after) := by
  unfold World.step
  rw [hm]
  simp only [Option.bind_eq_bind, Option.bind_some, h]
  exact ⟨_, rfl⟩

theorem step_of_spawned {m : Machine} {task : Task} {x : Outside} {o : Outcome}
    (ho : m.connection.exec x task = some o) :
    ∃ m', (m.spawn [task]).2.step m.threads.length x = some (o.effects, m') := by
  unfold Machine.step Machine.spawn
  dsimp only
  rw [List.getElem?_concat_length]
  simp only [ho, Option.map_some]
  exact ⟨_, rfl⟩

/-- Behind a call its first step can be taken. -/
theorem step_of_call {w : World} {n : Nat} {m : Machine} (hm : w.machines[n]? = some m)
    (call : Call) (x : Outside) :
    ∃ task effects after,
      ((w.spawn n call.tasks).2.thread? n m.threads.length).bind List.head? = some task ∧
        (w.spawn n call.tasks).2.step n m.threads.length x = some (effects, after) := by
  obtain ⟨task, o, htasks, ho⟩ := exec_of_call m.connection call
    ((w.spawn n call.tasks).2.numbered x)
  obtain ⟨m', hstep⟩ := step_of_spawned ho
  have hspawned : (w.spawn n call.tasks).2.machines[n]? = some (m.spawn call.tasks).2 := by
    rw [spawn_eq hm]
    exact List.getElem?_set_self (List.getElem?_eq_some_iff.mp hm).1
  rw [← htasks] at hstep
  obtain ⟨after, hafter⟩ := step_of_machine hspawned hstep
  refine ⟨task, o.effects, after, ?_, hafter⟩
  rw [(World.thread?_spawn hm call.tasks).2, htasks]
  rfl

theorem does_call (r : Course) {n : Nat} {m : Machine} {call : Call} (x : Outside)
    (hm : r.world.machines[n]? = some m) (hcall : m.takesCall call = true) :
    Does r (({ r with world := (r.world.spawn n call.tasks).2 } : Course).step n
      m.threads.length x) := by
  obtain ⟨task, effects, after, htask, hstep⟩ := step_of_call hm call x
  obtain ⟨m1, m', task', hmoves⟩ := World.moves_of_step hstep
  have hspawned := spawn_eq hm call.tasks
  have hm1 := hmoves.machine
  have hmachines := hmoves.machines
  have hsource := hmoves.source
  rw [hspawned] at hm1 hsource
  rw [hspawned, List.set_set] at hmachines
  obtain rfl : (m.spawn call.tasks).2 = m1 := Option.some.inj
    ((List.getElem?_set_self (List.getElem?_eq_some_iff.mp hm).1).symm.trans hm1)
  obtain rfl : task = task' :=
    Option.some.inj (htask.symm.trans ((head_of_next hmoves.machine).trans hmoves.head))
  let move : Move := .call call ((r.world.spawn n call.tasks).2.numbered x)
  have hmove : m.move move = some (⟨move, m.connection, task, effects, m'.connection⟩, m') := by
    simp only [Machine.move, move, if_pos hcall]
    exact enter_of_step _ hmoves.head hmoves.taken
  unfold step
  rw [htask, hstep]
  exact .stepped (s := ⟨n, m.threads.length, _, task, effects, after⟩)
    ⟨hm, ⟨_, makes_of_move hmove⟩, hmachines, hsource, World.started_spawn .., htask, x, hstep⟩

theorem does_act (r : Course) (a : Act) : Does r (r.act a) := by
  cases a with
  | add device config prober => exact .added
  | call n call x =>
    simp only [act]
    split
    · exact .nothing
    · rename_i m hm
      split
      · exact does_call r x hm ‹_›
      · exact .nothing
  | emit event => exact .emitted
  | step n thread x => exact does_step r n thread x

end Course

/-! ## The machine of a step -/

/-- A machine whose resources are told apart, and where all of them were given out before. -/
structure Machine.Sound (m : Machine) (last : Nat) : Prop where
  guarded : Guarded m.connection m.pending
  apart : m.held.Nodup
  old : ∀ i ∈ m.held, i.IsOld m.connection last

/-- What a step makes of what its machine has in hand. -/
structure Machine.Passes (m m' : Machine) (s : Step) (last : Nat) : Prop where
  sound : m'.Sound last
  turn : ∃ o, Turn m.connection s.task o ∧ o.connection = m'.connection ∧ o.effects = s.effects
  device : m'.connection.device = m.connection.device
  held : ∀ {k}, .subscription k ∈ m'.held → .subscription k ∈ m.held ∨ .subscribed k ∈ s.effects
  kept : ∀ {k}, .subscription k ∈ m.held →
    .subscription k ∈ m'.held ∨ .unsubscribed k ∈ s.effects
  made : ∀ {k}, .subscribed k ∈ s.effects → .subscription k ∈ m'.held
  ended : ∀ {k}, .unsubscribed k ∈ s.effects → .subscription k ∈ m.held
  /-- What is given back is not in hand any more. -/
  given : ∀ i ∈ s.given, i ∉ m'.held

section Passes

variable {c : Connection} {task : Task} {o : Outcome} {w : World} {s : Step} {m m' : Machine}
  {k last last' : Nat} {i : Item}

theorem Item.IsOld.later (h : i.IsOld c last) (hle : last ≤ last') : i.IsOld c last' := by
  cases i with
  | subscription => exact Nat.le_trans h hle
  | reader | port => exact h

theorem subscription_mem_taken (h : .subscribed k ∈ o.effects) :
    .subscription k ∈ o.taken c task :=
  List.mem_append_right _ (List.mem_filterMap.mpr ⟨_, h, rfl⟩)

theorem subscription_mem_given :
    .subscription k ∈ s.given ↔ .unsubscribed k ∈ s.effects := by
  unfold Step.given
  rw [List.mem_append]
  constructor
  · rintro (h | h)
    · unfold Task.stops at h
      split at h <;> simp at h
    · obtain ⟨e, he, hk⟩ := List.mem_filterMap.mp h
      cases e <;> simp [Effect.given] at hk
      exact hk ▸ he
  · exact fun h => Or.inr (List.mem_filterMap.mpr ⟨_, h, rfl⟩)

/-- No step makes one subscription and ends another. -/
theorem Turn.not_both (h : Turn c task o) {k l : Nat} (hs : .subscribed k ∈ o.effects) :
    .unsubscribed l ∉ o.effects := by
  intro hu
  rcases h.effects_on_source with hno | ⟨s, _, he⟩ | ⟨s, _, he⟩
  · cases hno _ hs
  · simp [he] at hu
  · simp [he] at hs

/-- Where one hoard is shared out anew, what is in the new share was in one of the old ones. -/
theorem mem_of_shared {a b c d : Multiset Item} (h : a + b = c + d) (hi : i ∈ d) :
    i ∈ a ∨ i ∈ b := by
  have hmem : i ∈ c + d := Multiset.mem_add.mpr (Or.inr hi)
  rw [← h] at hmem
  exact Multiset.mem_add.mp hmem

/-- What a step takes, its machine did not have in hand. -/
theorem Machine.Sound.apart_of_taken (h : m.Sound last)
    (taken : (o.taken m.connection task).Nodup)
    (fresh : ∀ i ∈ o.taken m.connection task, ¬ i.IsOld m.connection last) :
    ((o.taken m.connection task : Multiset Item) + m.held).Nodup := by
  refine Multiset.nodup_add.mpr ⟨Multiset.coe_nodup.mpr taken, h.apart, ?_⟩
  exact Multiset.disjoint_left.mpr fun hi hm => fresh _ (Multiset.mem_coe.mp hi) (h.old _ hm)

/-- What is taken or was in hand is given back or still in hand, and all of it is told apart. -/
theorem passes_of_took (took : Took w s m m') (h : m.Sound w.events.subscribers.lastId) :
    m.Passes m' s s.after.events.subscribers.lastId := by
  obtain ⟨move, hmakes⟩ := took.makes
  obtain ⟨o, ho, he, hacc⟩ := accounts_of_makes hmakes h.guarded
  dsimp only at ho he hacc
  have hledger : (o.taken m.connection s.task : Multiset Item) + m.held =
      (s.given : Multiset Item) + m'.held := by
    unfold Step.given
    rw [he]
    exact hacc.ledger
  obtain ⟨htaken, hnew⟩ := new_of_taken hacc.turn (he ▸ took.source)
  have hbefore := h.apart_of_taken htaken fun i hi => (hnew i hi).1
  have hafter := Multiset.nodup_add.mp (hledger ▸ hbefore)
  have hboth : ∀ {k}, .subscribed k ∈ s.effects → .unsubscribed k ∉ s.effects := by
    rw [he]
    exact hacc.turn.not_both
  refine ⟨⟨hacc.guarded, hafter.2.1, ?_⟩, ⟨o, hacc.turn, hacc.connection.symm, he.symm⟩, ?_, ?_,
    ?_, ?_, ?_, ?_⟩
  · intro i hi
    rw [hacc.connection]
    rcases mem_of_shared hledger hi with hi | hi
    · exact (hnew i (Multiset.mem_coe.mp hi)).2
    · exact (h.old i hi).mono hacc.turn took.source.grows
  · rw [hacc.connection]
    exact device_of_exec ho
  · intro k hk
    rcases mem_of_shared hledger hk with hk | hk
    · exact Or.inr (he ▸ subscription_of_taken (Multiset.mem_coe.mp hk))
    · exact Or.inl hk
  · intro k hk
    rcases mem_of_shared hledger.symm hk with hk | hk
    · exact Or.inr (subscription_mem_given.mp (Multiset.mem_coe.mp hk))
    · exact Or.inl hk
  · intro k hk
    have hmem : .subscription k ∈ (o.taken m.connection s.task : Multiset Item) :=
      Multiset.mem_coe.mpr (subscription_mem_taken (he ▸ hk))
    rcases mem_of_shared (hledger.symm.trans (add_comm ..)) hmem with hgiven | hheld
    · exact absurd (subscription_mem_given.mp (Multiset.mem_coe.mp hgiven)) (hboth hk)
    · exact hheld
  · intro k hk
    have hmem := Multiset.mem_coe.mpr (subscription_mem_given.mpr hk)
    rcases mem_of_shared (hledger.trans (add_comm ..)) hmem with htook | hheld
    · exact absurd hk (hboth (he ▸ subscription_of_taken (Multiset.mem_coe.mp htook)))
    · exact hheld
  · exact fun i hi hheld => Multiset.disjoint_left.mp hafter.2.2 (Multiset.mem_coe.mpr hi) hheld

end Passes

/-! ## Whose a subscription is -/

/-- What is known of the subscriptions at any time. -/
structure Coherent (r : Course) : Prop where
  sound : ∀ {n : Nat} {m : Machine}, r.world.machines[n]? = some m →
    m.Sound r.world.events.subscribers.lastId
  /-- What a connection has in hand was made by one of its attempts. -/
  made : ∀ {n k : Nat} {m : Machine}, r.world.machines[n]? = some m →
    .subscription k ∈ m.held → ∃ a ≤ m.connection.session.attempt, r.Made n k a
  /-- What its session owns was made by the attempt under way. -/
  own : ∀ {n k : Nat} {m : Machine}, r.world.machines[n]? = some m →
    m.connection.session.resources.subscription = some k →
      r.Made n k m.connection.session.attempt
  /-- A live subscription is in the hands of the connection that is told. -/
  live : ∀ sub ∈ r.world.events.subscribers.live, ∃ m : Machine,
    r.world.machines[sub.handler]? = some m ∧
      m.connection.device.identifier = sub.deviceId ∧ .subscription sub.id ∈ m.held
  numbered : ∀ {n k a : Nat}, r.Made n k a → k ≤ r.world.events.subscribers.lastId
  once : ∀ {n k a l b : Nat}, r.Made n k a → r.Made l k b → n = l ∧ a = b
  /-- What was ended is live no more. -/
  gone : ∀ {k : Nat}, r.Removed k → k ≤ r.world.events.subscribers.lastId ∧
    ∀ sub ∈ r.world.events.subscribers.live, sub.id ≠ k

section Coherent

variable {r : Course} {s : Step} {w : World} {m m' : Machine} {n k a : Nat}

theorem Course.made_snoc :
    ({ steps := r.steps ++ [s], world := w } : Course).Made n k a ↔ r.Made n k a ∨
      s.connection = n ∧ .subscribed k ∈ s.effects ∧
        (s.after.connection? n).map (·.session.attempt) = some a := by
  unfold Course.Made
  simp only [List.mem_append, List.mem_singleton, or_and_right, exists_or, exists_eq_left]

theorem Course.removed_snoc :
    ({ steps := r.steps ++ [s], world := w } : Course).Removed k ↔ r.Removed k ∨
      .unsubscribed k ∈ s.effects := by
  unfold Course.Removed
  simp only [List.mem_append, List.mem_singleton, or_and_right, exists_or, exists_eq_left]

theorem Took.connection (took : Took w s m m') :
    s.after.connection? s.connection = some m'.connection := by
  unfold World.connection?
  rw [took.machines, List.getElem?_set_self (List.getElem?_eq_some_iff.mp took.machine).1]
  rfl

/-- A machine behind a step is the one that took it, or one that stays as it was. -/
theorem Took.machine_cases (took : Took w s m m') {m'' : Machine}
    (h : s.after.machines[n]? = some m'') :
    n = s.connection ∧ m'' = m' ∨ n ≠ s.connection ∧ w.machines[n]? = some m'' := by
  rw [took.machines] at h
  by_cases hn : n = s.connection
  · subst hn
    rw [List.getElem?_set_self (List.getElem?_eq_some_iff.mp took.machine).1] at h
    exact Or.inl ⟨rfl, (Option.some.inj h).symm⟩
  · rw [List.getElem?_set_ne (Ne.symm hn)] at h
    exact Or.inr ⟨hn, h⟩

/-- The subscription that a step makes belongs to the attempt that the step begins. -/
theorem Took.made (took : Took r.world s m m') (hk : .subscribed k ∈ s.effects) :
    ({ steps := r.steps ++ [s], world := s.after } : Course).Made s.connection k
      m'.connection.session.attempt := by
  refine Course.made_snoc.mpr (Or.inr ⟨rfl, hk, ?_⟩)
  rw [took.connection]
  rfl

theorem Course.Made.snoc (h : r.Made n k a) :
    ({ steps := r.steps ++ [s], world := w } : Course).Made n k a :=
  Course.made_snoc.mpr (Or.inl h)

theorem Coherent.passes (h : Coherent r) (took : Took r.world s m m') :
    m.Passes m' s s.after.events.subscribers.lastId :=
  passes_of_took took (h.sound took.machine)

theorem Coherent.made_step (h : Coherent r) (took : Took r.world s m m')
    (hk : .subscription k ∈ m'.held) : ∃ a ≤ m'.connection.session.attempt,
      ({ steps := r.steps ++ [s], world := s.after } : Course).Made s.connection k a := by
  obtain ⟨o, hturn, hc, _⟩ := (h.passes took).turn
  rcases (h.passes took).held hk with hk | hk
  · obtain ⟨a, ha, hmade⟩ := h.made took.machine hk
    exact ⟨a, Nat.le_trans ha (hc ▸ hturn.attempt_le), hmade.snoc⟩
  · exact ⟨_, Nat.le_refl _, took.made hk⟩

/-- What the session owns behind a step it owned before, in the same attempt, or the step made
it. -/
theorem Coherent.own_step (h : Coherent r) (took : Took r.world s m m')
    (hk : m'.connection.session.resources.subscription = some k) :
    ({ steps := r.steps ++ [s], world := s.after } : Course).Made s.connection k
      m'.connection.session.attempt := by
  obtain ⟨o, hturn, hc, he⟩ := (h.passes took).turn
  rw [← hc] at hk
  rcases hturn.subscription hk with ⟨hk, hsame⟩ | hk
  · rw [← hc, hsame]
    exact (h.own took.machine hk).snoc
  · exact took.made (he ▸ hk)

theorem Coherent.live_step (h : Coherent r) (took : Took r.world s m m') :
    ∀ sub ∈ s.after.events.subscribers.live, ∃ m'' : Machine,
      s.after.machines[sub.handler]? = some m'' ∧
        m''.connection.device.identifier = sub.deviceId ∧ .subscription sub.id ∈ m''.held := by
  have hpasses := h.passes took
  have hself : s.after.machines[s.connection]? = some m' := by
    rw [took.machines]
    exact List.getElem?_set_self (List.getElem?_eq_some_iff.mp took.machine).1
  intro sub hsub
  rcases took.source.live sub hsub with ⟨hold, hnot⟩ | ⟨hnew, hhandler, hid⟩
  · obtain ⟨m'', hm, hdevice, hheld⟩ := h.live sub hold
    by_cases hn : sub.handler = s.connection
    · rw [hn] at hm ⊢
      obtain rfl : m = m'' := Option.some.inj (took.machine.symm.trans hm)
      exact ⟨m', hself, hpasses.device ▸ hdevice, (hpasses.kept hheld).resolve_right hnot⟩
    · refine ⟨m'', ?_, hdevice, hheld⟩
      rw [took.machines, List.getElem?_set_ne (Ne.symm hn)]
      exact hm
  · exact ⟨m', hhandler ▸ hself, hid.symm, hpasses.made hnew⟩

/-- A number that a step gives out was not given out before. -/
theorem Coherent.once_step (h : Coherent r) (took : Took r.world s m m') {l b : Nat}
    (hmade : ({ steps := r.steps ++ [s], world := s.after } : Course).Made n k a)
    (hmade' : ({ steps := r.steps ++ [s], world := s.after } : Course).Made l k b) :
    n = l ∧ a = b := by
  rcases Course.made_snoc.mp hmade with hmade | ⟨hn, hk, ha⟩ <;>
    rcases Course.made_snoc.mp hmade' with hmade' | ⟨hl, hk', hb⟩
  · exact h.once hmade hmade'
  · exact absurd (h.numbered hmade) (Nat.not_le_of_lt (took.source.fresh k hk').1)
  · exact absurd (h.numbered hmade') (Nat.not_le_of_lt (took.source.fresh k hk).1)
  · subst hn hl
    exact ⟨rfl, Option.some.inj (ha.symm.trans hb)⟩

theorem Coherent.gone_step (h : Coherent r) (took : Took r.world s m m')
    (hk : ({ steps := r.steps ++ [s], world := s.after } : Course).Removed k) :
    k ≤ s.after.events.subscribers.lastId ∧
      ∀ sub ∈ s.after.events.subscribers.live, sub.id ≠ k := by
  obtain ⟨o, hturn, _, he⟩ := (h.passes took).turn
  rcases Course.removed_snoc.mp hk with hk | hk
  · obtain ⟨hnumber, hgone⟩ := h.gone hk
    refine ⟨Nat.le_trans hnumber took.source.grows, fun sub hsub => ?_⟩
    rcases took.source.live sub hsub with ⟨hold, _⟩ | ⟨hnew, _⟩
    · exact hgone sub hold
    · have := (took.source.fresh _ hnew).1
      omega
  · have hold := (h.sound took.machine).old _ ((h.passes took).ended hk)
    refine ⟨Nat.le_trans hold took.source.grows, fun sub hsub hid => ?_⟩
    rcases took.source.live sub hsub with ⟨_, hnot⟩ | ⟨hnew, _⟩
    · exact hnot (hid ▸ hk)
    · exact hturn.not_both (he ▸ hnew) (he ▸ hk)

theorem Coherent.step (h : Coherent r) (took : Took r.world s m m') :
    Coherent { steps := r.steps ++ [s], world := s.after } where
  sound := by
    intro n m'' hm
    rcases took.machine_cases hm with ⟨rfl, rfl⟩ | ⟨_, hm⟩
    · exact (h.passes took).sound
    · have hsound := h.sound hm
      exact ⟨hsound.guarded, hsound.apart,
        fun i hi => (hsound.old i hi).later took.source.grows⟩
  made := by
    intro n k m'' hm hk
    rcases took.machine_cases hm with ⟨rfl, rfl⟩ | ⟨_, hm⟩
    · exact h.made_step took hk
    · obtain ⟨a, ha, hmade⟩ := h.made hm hk
      exact ⟨a, ha, hmade.snoc⟩
  own := by
    intro n k m'' hm hk
    rcases took.machine_cases hm with ⟨rfl, rfl⟩ | ⟨_, hm⟩
    · exact h.own_step took hk
    · exact (h.own hm hk).snoc
  live := h.live_step took
  numbered := by
    intro n k a hmade
    rcases Course.made_snoc.mp hmade with hmade | ⟨_, hk, _⟩
    · exact Nat.le_trans (h.numbered hmade) took.source.grows
    · exact (took.source.fresh k hk).2
  once := h.once_step took
  gone := h.gone_step took

/-- The same connection, with the same in hand. -/
structure Machine.Alike (m m' : Machine) : Prop where
  connection : m'.connection = m.connection
  held : m'.held = m.held
  guarded : Guarded m.connection m.pending → Guarded m'.connection m'.pending

/-- A machine that is new or alike to one that was there. -/
theorem Coherent.of_alike (h : Coherent r) (events : w.events = r.world.events)
    (alike : ∀ {n : Nat} {m : Machine}, r.world.machines[n]? = some m →
      ∃ m', w.machines[n]? = some m' ∧ m.Alike m')
    (news : ∀ {n : Nat} {m' : Machine}, w.machines[n]? = some m' → r.world.machines[n]? = none →
      Guarded m'.connection m'.pending ∧ m'.held = 0) :
    Coherent { r with world := w } := by
  have hcases : ∀ {n : Nat} {m' : Machine}, w.machines[n]? = some m' →
      (∃ m, r.world.machines[n]? = some m ∧ m.Alike m') ∨
        Guarded m'.connection m'.pending ∧ m'.held = 0 := by
    intro n m' hm'
    cases hm : r.world.machines[n]? with
    | none => exact Or.inr (news hm' hm)
    | some m =>
      obtain ⟨m'', hm'', hsame⟩ := alike hm
      obtain rfl : m' = m'' := Option.some.inj (hm'.symm.trans hm'')
      exact Or.inl ⟨m, rfl, hsame⟩
  refine ⟨?_, ?_, ?_, ?_, ?_, h.once, ?_⟩
  · intro n m' hm'
    rcases hcases hm' with ⟨m, hm, hsame⟩ | ⟨hguarded, hnone⟩
    · have hsound := h.sound hm
      refine ⟨hsame.guarded hsound.guarded, hsame.held ▸ hsound.apart, ?_⟩
      rw [hsame.held, hsame.connection, events]
      exact hsound.old
    · refine ⟨hguarded, hnone ▸ Multiset.nodup_zero, ?_⟩
      rw [hnone]
      exact fun i hi => absurd hi (Multiset.notMem_zero i)
  · intro n k m' hm' hk
    rcases hcases hm' with ⟨m, hm, hsame⟩ | ⟨_, hnone⟩
    · rw [hsame.connection]
      exact h.made hm (hsame.held ▸ hk)
    · rw [hnone] at hk
      exact absurd hk (Multiset.notMem_zero _)
  · intro n k m' hm' hk
    rcases hcases hm' with ⟨m, hm, hsame⟩ | ⟨_, hnone⟩
    · rw [hsame.connection] at hk ⊢
      exact h.own hm hk
    · have hmem : .subscription k ∈ m'.held :=
        Multiset.mem_add.mpr (Or.inl (Multiset.mem_coe.mpr (mem_itemsOf_subscription.mpr hk)))
      rw [hnone] at hmem
      exact absurd hmem (Multiset.notMem_zero _)
  · rw [events]
    intro sub hsub
    obtain ⟨m, hm, hdevice, hheld⟩ := h.live sub hsub
    obtain ⟨m', hm', hsame⟩ := alike hm
    exact ⟨m', hm', hsame.connection ▸ hdevice, hsame.held ▸ hheld⟩
  · rw [events]
    exact h.numbered
  · rw [events]
    exact h.gone

theorem Coherent.add (h : Coherent r) (device : DeviceInfo) (config : ConnectionConfig)
    (prober : Prober) :
    Coherent { r with world := (r.world.add (.new device config prober)).2 } := by
  refine h.of_alike rfl ?_ ?_
  · intro n m hm
    refine ⟨m, ?_, rfl, rfl, id⟩
    exact (List.getElem?_append_left (List.getElem?_eq_some_iff.mp hm).1).trans hm
  · intro n m' hm' hnone
    unfold World.add at hm'
    rw [List.getElem?_append_right (List.getElem?_eq_none_iff.mp hnone)] at hm'
    obtain rfl := List.mem_singleton.mp (List.mem_of_getElem? hm')
    exact ⟨guarded_new device config prober, rfl⟩

/-- A thread that is about to handle an event has nothing in hand. -/
theorem alike_spawn (m : Machine) (kind : DeviceEventKind) :
    m.Alike (m.spawn [.handle kind]).2 := by
  have hpending : (m.spawn [.handle kind]).2.pending = .handle kind ::ₘ m.pending := by
    unfold Machine.spawn Machine.pending
    rw [List.flatten_append, ← Multiset.coe_add, add_comm]
    rfl
  refine ⟨rfl, ?_, fun hg => ?_⟩
  · unfold Machine.held
    rw [hpending, owed_cons, show (Task.handle kind).owed = [] from rfl, Multiset.coe_nil,
      zero_add]
    rfl
  · rw [hpending]
    refine ⟨fun held => (hg.held held).begin rfl, fun gone => ⟨(hg.gone gone).empty, ?_⟩, ?_⟩
    · exact Multiset.forall_mem_cons.mpr ⟨rfl, (hg.gone gone).rest⟩
    · simpa using hg.undropped

theorem Coherent.spawn (h : Coherent r) (n : Nat) (kind : DeviceEventKind) :
    Coherent { r with world := (r.world.spawn n [.handle kind]).2 } := by
  cases hm : r.world.machines[n]? with
  | none =>
    unfold World.spawn
    rw [hm]
    exact h
  | some m =>
    have hn := (List.getElem?_eq_some_iff.mp hm).1
    rw [Course.spawn_eq hm]
    refine h.of_alike rfl ?_ ?_
    · intro k m' hm'
      by_cases hk : n = k
      · subst hk
        obtain rfl : m = m' := Option.some.inj (hm.symm.trans hm')
        exact ⟨_, List.getElem?_set_self hn, alike_spawn m kind⟩
      · exact ⟨m', (List.getElem?_set_ne hk).trans hm', rfl, rfl, id⟩
    · intro k m' hm' hnone
      have := List.getElem?_eq_none_iff.mp hnone
      have hlt := (List.getElem?_eq_some_iff.mp hm').1
      rw [List.length_set] at hlt
      omega

theorem Coherent.emit (h : Coherent r) (event : DeviceEvent) :
    Coherent { r with world := (r.world.emit event).2 } := by
  change Coherent { r with world := (r.world.calls event.kind _).2 }
  generalize r.world.events.subscribers.handlersFor event.deviceId = handlers
  unfold World.calls
  induction handlers generalizing r with
  | nil => exact h
  | cons n rest ih => exact ih (h.spawn n event.kind)

theorem Course.Does.coherent {r' : Course} (hd : r.Does r') (h : Coherent r) : Coherent r' := by
  cases hd with
  | nothing => exact h
  | added => exact h.add ..
  | emitted => exact h.emit _
  | stepped took => exact h.step took

/-- A subscription belongs to one attempt of one connection at any time. -/
theorem coherent_of_acts (acts : List Act) : Coherent (Course.of acts) := by
  induction acts using List.reverseRecOn with
  | nil =>
    exact ⟨nofun, nofun, nofun, nofun, fun ⟨_, hs, _⟩ => (List.not_mem_nil hs).elim,
      fun ⟨_, hs, _⟩ => (List.not_mem_nil hs).elim, fun ⟨_, hs, _⟩ => (List.not_mem_nil hs).elim⟩
  | append_singleton acts a ih =>
    rw [Course.of_snoc]
    exact (Course.does_act _ a).coherent ih

end Coherent

end SerialLink.Connection
