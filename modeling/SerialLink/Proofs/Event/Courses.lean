-- Connections that share an event source, with the handlers that an emit has
-- yet to call. An emit notes down who is to be told before anybody is told, so
-- a handler may be called when its subscription is long gone; calls, steps and
-- other emits come in between in any order.
import SerialLink.Proofs.Registry.Handles

namespace SerialLink.Connection

/-! ## Courses -/

deriving instance DecidableEq for Subscription

namespace World

/-- What can happen next. A call takes its first step at once; the handlers that an emit is going
to call take theirs when their turn comes. -/
inductive Act
  | add (device : DeviceInfo) (config : ConnectionConfig) (prober : Prober)
  | call (connection : Nat) (call : Call) (x : Outside)
  | emit (event : DeviceEvent)
  | step (connection thread : Nat) (x : Outside)

/-- One step of a thread of a connection, between two worlds. -/
structure Step where
  connection : Nat
  thread : Nat
  before : World
  task : Task
  effects : List Effect
  after : World

/-- What a step gives back. -/
def Step.given (s : Step) : List Item := s.task.stops ++ s.effects.filterMap Effect.given

/-- The subscriptions that an event goes to, as they stand. -/
def told (w : World) (event : DeviceEvent) : List (Subscription Nat) :=
  w.events.subscribers.live.filter fun sub => sub.deviceId == event.deviceId

/-- The event goes to this subscription, and this thread is about to call its handler. -/
def Delivers (w : World) (event : DeviceEvent) (sub : Subscription Nat) (thread : Nat) : Prop :=
  (sub, sub.handler, thread) ∈ (w.told event).zip (w.emit event).1

instance (w : World) (event : DeviceEvent) (sub : Subscription Nat) (thread : Nat) :
    Decidable (w.Delivers event sub thread) :=
  inferInstanceAs (Decidable (_ ∈ _))

end World

open World (Act Step)

/-- The steps that were taken, oldest first, and the world behind them. -/
structure Course where
  steps : List Step := []
  world : World := {}

namespace Course

/-- A step of a thread, if it need not wait. -/
def step (r : Course) (n thread : Nat) (x : Outside) : Course :=
  match (r.world.thread? n thread).bind List.head?, r.world.step n thread x with
  | some task, some (effects, after) =>
    { steps := r.steps ++ [⟨n, thread, r.world, task, effects, after⟩], world := after }
  | _, _ => r

def act (r : Course) : Act → Course
  | .add device config prober =>
    { r with world := (r.world.add (.new device config prober)).2 }
  | .call n call x =>
    match r.world.machines[n]? with
    | none => r
    | some m =>
      if m.takesCall call then
        { r with world := (r.world.spawn n call.tasks).2 }.step n m.threads.length x
      else r
  | .emit event => { r with world := (r.world.emit event).2 }
  | .step n thread x => r.step n thread x

/-- What comes of no connection by these acts. -/
def of (acts : List Act) : Course := acts.foldl act {}

/-- The steps that come of more acts. -/
def later (acts more : List Act) : List Step :=
  (of (acts ++ more)).steps.drop (of acts).steps.length

/-- Attempt `a` of connection `n` made this subscription. -/
def Made (r : Course) (n s a : Nat) : Prop :=
  ∃ step ∈ r.steps, step.connection = n ∧ .subscribed s ∈ step.effects ∧
    (step.after.connection? n).map (·.session.attempt) = some a

/-- The subscription was ended. -/
def Removed (r : Course) (s : Nat) : Prop := ∃ step ∈ r.steps, .unsubscribed s ∈ step.effects

instance (effects : List Effect) (s : Nat) : Decidable (.subscribed s ∈ effects) :=
  decidable_of_iff (∃ e ∈ effects, e.taken = some (.subscription s)) <| by
    constructor
    · rintro ⟨e, he, hs⟩
      cases e <;> simp [Effect.taken] at hs
      exact hs ▸ he
    · exact fun h => ⟨_, h, rfl⟩

instance (effects : List Effect) (s : Nat) : Decidable (.unsubscribed s ∈ effects) :=
  decidable_of_iff (∃ e ∈ effects, e.given = some (.subscription s)) <| by
    constructor
    · rintro ⟨e, he, hs⟩
      cases e <;> simp [Effect.given] at hs
      exact hs ▸ he
    · exact fun h => ⟨_, h, rfl⟩

instance (r : Course) (n s a : Nat) : Decidable (r.Made n s a) :=
  inferInstanceAs (Decidable (∃ step ∈ r.steps, _))

instance (r : Course) (s : Nat) : Decidable (r.Removed s) :=
  inferInstanceAs (Decidable (∃ step ∈ r.steps, _))

theorem of_snoc (acts : List Act) (a : Act) : of (acts ++ [a]) = (of acts).act a := by
  unfold of
  rw [List.foldl_append]
  rfl

end Course

/-! ## What a machine has in hand -/

/-- What the session owns, and what some thread has yet to give back. -/
def Machine.held (m : Machine) : Multiset Item :=
  itemsOf m.connection.session.resources + owed m.pending

/-- Subscriptions, readers and ports that were given out have smaller numbers than the next. -/
def Item.IsOld (c : Connection) (lastId : Nat) : Item → Prop
  | .subscription s => s ≤ lastId
  | .reader k => k < c.readers.length
  | .port p => p < c.ports

theorem mem_itemsOf_subscription {r : Resources} {s : Nat} :
    .subscription s ∈ itemsOf r ↔ r.subscription = some s := by
  obtain ⟨drain, reader, subscription, port⟩ := r
  cases reader <;> cases subscription <;> cases port <;> simp [itemsOf, eq_comm]

theorem unsubscribe_of_owed {P : Multiset Task} {s : Nat} (h : .subscription s ∈ owed P) :
    .unsubscribe s ∈ P := by
  obtain ⟨t, ht, hs⟩ := Multiset.mem_bind.mp h
  have : t = .unsubscribe s := by
    cases t <;> simp [Task.owed] at hs
    rw [hs]
  exact this ▸ ht

section Source

variable {c : Connection} {task : Task} {o : Outcome} {others : Multiset Task} {x : Outside}

/-- An effect on the event source. -/
def Effect.isOfSource : Effect → Bool
  | .subscribed _ | .unsubscribed _ => true
  | _ => false

/-- A step goes to the event source once at most. -/
theorem Turn.effects_on_source (h : Turn c task o) :
    (∀ e ∈ o.effects, e.isOfSource = false) ∨
      (∃ s, task = .connect ∧ o.effects = [.subscribed s]) ∨
        ∃ s, task = .unsubscribe s ∧ o.effects = [.unsubscribed s] := by
  have haside : (∀ e ∈ o.effects, e.isAside) → ∀ e ∈ o.effects, e.isOfSource = false := by
    intro he e hmem
    have := he e hmem
    cases e <;> first | rfl | cases this
  cases h with
  | worker _ _ he | aside _ _ he => exact Or.inl (haside he)
  | begun => exact Or.inr (Or.inl ⟨_, rfl, rfl⟩)
  | unsubscribed => exact Or.inr (Or.inr ⟨_, rfl, rfl⟩)
  | _ => exact Or.inl (by simp [Effect.isOfSource])

/-- The number of a new subscription is the one that the source answered. -/
theorem subscribe_of_subscribed (h : c.exec x task = some o) {s : Nat}
    (hs : .subscribed s ∈ o.effects) : x.subscribe = .ok s := by
  rcases (exec_turn h).effects_on_source with hno | ⟨s', rfl, he⟩ | ⟨s', _, he⟩
  · cases hno _ hs
  · rw [he, List.mem_singleton] at hs
    cases hs
    cases h
    unfold stepConnect at he
    split at he
    · simp at he
    · split at he
      · simp at he
      · rename_i answer
        rw [answer]
        exact congrArg _ (by simpa using he)
  · rw [he, List.mem_singleton] at hs
    cases hs

/-- What becomes of the subscriptions by the effects of a step of connection `n`. -/
structure Heeds (s s' : Subscribers Nat) (n : Nat) (deviceId : String) (effects : List Effect) :
    Prop where
  grows : s.lastId ≤ s'.lastId
  fresh : ∀ k, .subscribed k ∈ effects → s.lastId < k ∧ k ≤ s'.lastId
  live : ∀ sub ∈ s'.live, sub ∈ s.live ∧ .unsubscribed sub.id ∉ effects ∨
    .subscribed sub.id ∈ effects ∧ sub.handler = n ∧ sub.deviceId = deviceId

/-- What a step of a thread is on its machine, and what it is on the source. -/
structure World.Moves (w : World) (n thread : Nat) (x : Outside) (effects : List Effect)
    (w' : World) (m m' : Machine) (task : Task) : Prop where
  machine : w.machines[n]? = some m
  head : m.next? thread = some task
  taken : m.step thread (w.numbered x) = some (effects, m')
  machines : w'.machines = w.machines.set n m'
  source : Heeds w.events.subscribers w'.events.subscribers n m'.connection.device.identifier
    effects

section Heeds

variable {w : World} {n : Nat} {deviceId : String}

theorem events_of_aside {effects : List Effect} (h : ∀ e ∈ effects, e.isOfSource = false) :
    (effects.foldl (fun w e => w.apply n deviceId e) w).events = w.events := by
  induction effects generalizing w with
  | nil => rfl
  | cons e rest ih =>
    rw [List.foldl_cons, ih fun e' he' => h e' (List.mem_cons_of_mem _ he')]
    have := h e List.mem_cons_self
    cases e <;> first | rfl | cases this

theorem heeds_of_aside {s : Subscribers Nat} {effects : List Effect}
    (h : ∀ e ∈ effects, e.isOfSource = false) : Heeds s s n deviceId effects :=
  ⟨Nat.le_refl _, fun _ hk => absurd (h _ hk) nofun,
    fun _ hsub => Or.inl ⟨hsub, fun hu => absurd (h _ hu) nofun⟩⟩

theorem heeds_of_subscribed :
    Heeds w.events.subscribers
      (w.apply n deviceId (.subscribed (w.events.subscribers.lastId + 1))).events.subscribers n
      deviceId [.subscribed (w.events.subscribers.lastId + 1)] := by
  refine ⟨Nat.le_succ _, fun k hk => ?_, fun sub hsub => ?_⟩
  · obtain rfl := Effect.subscribed.inj (List.mem_singleton.mp hk)
    exact ⟨Nat.lt_succ_self _, Nat.le_refl _⟩
  · rcases List.mem_append.mp hsub with hold | hnew
    · exact Or.inl ⟨hold, by simp⟩
    · rw [List.mem_singleton.mp hnew]
      exact Or.inr ⟨List.mem_singleton_self _, rfl, rfl⟩

theorem heeds_of_unsubscribed (s : Nat) :
    Heeds w.events.subscribers (w.apply n deviceId (.unsubscribed s)).events.subscribers n deviceId
      [.unsubscribed s] := by
  simp only [World.apply, EventSource.unsubscribe, Subscribers.remove]
  split
  case isTrue =>
    refine ⟨Nat.le_refl _, by simp, fun sub hsub => ?_⟩
    obtain ⟨hold, hne⟩ := List.mem_filter.mp hsub
    exact Or.inl ⟨hold, by simpa using hne⟩
  case isFalse hnone =>
    refine ⟨Nat.le_refl _, by simp, fun sub hsub => Or.inl ⟨hsub, fun hu => ?_⟩⟩
    obtain rfl := Effect.unsubscribed.inj (List.mem_singleton.mp hu)
    exact hnone (List.any_eq_true.mpr ⟨sub, hsub, beq_self_eq_true _⟩)

theorem heeds_of_effects
    (hx : x.subscribe = .ok (w.events.subscribers.lastId + 1) ∨ ∀ s, x.subscribe ≠ .ok s)
    (h : c.exec x task = some o) :
    Heeds w.events.subscribers
      (o.effects.foldl (fun w e => w.apply n deviceId e) w).events.subscribers n deviceId
      o.effects := by
  rcases (exec_turn h).effects_on_source with hno | ⟨s, _, he⟩ | ⟨s, _, he⟩
  · rw [events_of_aside hno]
    exact heeds_of_aside hno
  · have hs : x.subscribe = .ok s := subscribe_of_subscribed h (by rw [he]; simp)
    obtain rfl : s = w.events.subscribers.lastId + 1 := by
      rcases hx with hx | hx
      · rw [hs] at hx
        exact Except.ok.inj hx
      · exact absurd hs (hx s)
    rw [he]
    exact heeds_of_subscribed
  · rw [he]
    exact heeds_of_unsubscribed s

end Heeds

theorem World.moves_of_step {w w' : World} {n thread : Nat} {effects : List Effect}
    (h : w.step n thread x = some (effects, w')) :
    ∃ m m' task, w.Moves n thread x effects w' m m' task := by
  unfold World.step at h
  rcases hm : w.machines[n]? with _ | m
  · simp [hm] at h
  · simp only [hm, Option.bind_eq_bind, Option.bind_some] at h
    obtain ⟨⟨_, m'⟩, hs, h⟩ := Option.bind_eq_some_iff.mp h
    obtain ⟨rfl, rfl⟩ := Prod.mk.inj (Option.some.inj h)
    have hstep := hs
    unfold Machine.step at hs
    split at hs
    · rename_i task rest ht
      obtain ⟨o, ho, hmade⟩ := Option.map_eq_some_iff.mp hs
      obtain ⟨rfl, rfl⟩ := Prod.mk.inj hmade
      refine ⟨m, _, task, hm, by simp [Machine.next?, ht], hstep, machines_applied .., ?_⟩
      refine heeds_of_effects (w := { w with machines := w.machines.set n _ }) ?_ ho
      unfold World.numbered
      cases x.subscribe with
      | error e => exact Or.inr fun s hs => by cases hs
      | ok s => exact Or.inl rfl
    · cases hs

end Source

/-! ## The ledger of one step -/

section Ledger

variable {c : Connection} {task : Task} {o : Outcome} {x : Outside} {n last last' : Nat}
  {deviceId : String} {s s' : Subscribers Nat} {i : Item}

/-- What a step takes. -/
def Outcome.taken (o : Outcome) (c : Connection) (task : Task) : List Item :=
  task.brings c ++ o.effects.filterMap Effect.taken

theorem subscription_of_taken {k : Nat} (h : .subscription k ∈ o.taken c task) :
    .subscribed k ∈ o.effects := by
  rcases List.mem_append.mp h with h | h
  · unfold Task.brings at h
    split at h
    · simp at h
    · split at h <;> simp at h
    · cases h
  · obtain ⟨e, he, hk⟩ := List.mem_filterMap.mp h
    cases e <;> simp [Effect.taken] at hk
    exact hk ▸ he

theorem count_subscription_taken (h : Turn c task o) (k : Nat) :
    (o.taken c task).count (.subscription k) ≤ 1 := by
  have hbrings : (task.brings c).count (.subscription k) = 0 := by
    unfold Task.brings
    split
    · simp
    · split <;> simp
    · rfl
  unfold Outcome.taken
  rw [List.count_append, hbrings, Nat.zero_add]
  have hlength : (o.effects.filterMap Effect.taken).length ≤ 1 := by
    rcases h.effects_on_source with hno | ⟨s, _, he⟩ | ⟨s, _, he⟩
    · have hnone : o.effects.filterMap Effect.taken = [] := by
        rw [List.filterMap_eq_nil_iff]
        intro e he
        have := hno e he
        cases e <;> first | rfl | cases this
      rw [hnone]
      exact Nat.zero_le _
    · rw [he]
      exact Nat.le_refl _
    · rw [he]
      exact Nat.zero_le _
  exact Nat.le_trans List.count_le_length hlength

/-- A reader or a port is taken once at most. An old one is not taken and stays old, and one that
is taken is old behind the step. -/
theorem Turn.ages (h : Turn c task o) (hi : ∀ k, i ≠ .subscription k) (last last' : Nat) :
    (o.taken c task).count i ≤ 1 ∧
      (i.IsOld c last → i.IsOld o.connection last' ∧ i ∉ o.taken c task) ∧
        (i ∈ o.taken c task → i.IsOld o.connection last') := by
  rw [← List.count_pos_iff]
  unfold Outcome.taken
  cases i with
  | subscription k => exact absurd rfl (hi k)
  | reader k =>
    have hk := (h.numbers k).2
    unfold Item.IsOld
    split_ifs at hk <;> omega
  | port k =>
    have hk := (h.numbers k).1
    unfold Item.IsOld
    split_ifs at hk <;> omega

/-- What is old stays old. -/
theorem Item.IsOld.mono (h : i.IsOld c last) (hturn : Turn c task o) (hlast : last ≤ last') :
    i.IsOld o.connection last' := by
  cases i with
  | subscription k => exact Nat.le_trans h hlast
  | reader | port => exact ((hturn.ages (by simp) last last').2.1 h).1

/-- What a step takes was not given out before, and is taken once. -/
theorem new_of_taken (hturn : Turn c task o) (hheeds : Heeds s s' n deviceId o.effects) :
    (o.taken c task).Nodup ∧ ∀ i ∈ o.taken c task, ¬ i.IsOld c s.lastId ∧
      i.IsOld o.connection s'.lastId := by
  have hages := fun {i} (hi : ∀ k, i ≠ Item.subscription k) =>
    hturn.ages hi s.lastId s'.lastId
  refine ⟨List.nodup_iff_count_le_one.mpr fun i => ?_, fun i hi => ?_⟩
  · cases i with
    | subscription k => exact count_subscription_taken hturn k
    | reader | port => exact (hages (by simp)).1
  · cases i with
    | subscription k =>
      obtain ⟨hnew, hold⟩ := hheeds.fresh k (subscription_of_taken hi)
      exact ⟨Nat.not_le_of_lt hnew, hold⟩
    | reader | port => exact ⟨fun hold => ((hages (by simp)).2.1 hold).2 hi, (hages (by simp)).2.2 hi⟩

end Ledger

/-- A step of a machine, with what it takes and gives back beside what the machine has in hand. -/
structure Machine.Accounts (m m' : Machine) (task : Task) (o : Outcome) : Prop where
  turn : Turn m.connection task o
  connection : m'.connection = o.connection
  guarded : Guarded m'.connection m'.pending
  ledger : (o.taken m.connection task : Multiset Item) + m.held =
    ((task.stops ++ o.effects.filterMap Effect.given : List Item) : Multiset Item) + m'.held

/-- Where a step is taken: its task has been pending, or it begins and owes nothing. Behind the step
the machine is guarded again. -/
theorem held_where_poised {m : Machine} {task : Task} {others : Multiset Task} {move : Move}
    {o : Outcome} (hturn : Turn m.connection task o) (hg : Guarded m.connection m.pending)
    (hsource : m.pending = task ::ₘ others ∨
      m.pending = others ∧ Begins m.connection others move task) :
    Poised m.connection others task ∧
      m.held = itemsOf m.connection.session.resources +
        ((task.owed : Multiset Item) + owed others) ∧
      Guarded o.connection ((o.next : Multiset Task) + (o.started.flatten : Multiset Task) +
        others) := by
  unfold Machine.held
  rcases hsource with hmem | ⟨hmem, hb⟩
  · rw [hmem] at hg ⊢
    exact ⟨Or.inl hg, by rw [owed_cons], hturn.guarded hg⟩
  · have hnone : task.owed = [] := by cases hb <;> rfl
    rw [hmem] at hg ⊢
    rw [hnone, Multiset.coe_nil, zero_add]
    by_cases hd : task = .drop
    · subst hd
      cases hb with
      | drop _ free => exact ⟨Or.inr rfl, rfl, guarded_drop hturn hg free⟩
    · have hg' := hg.begin hb hd
      exact ⟨Or.inl hg', rfl, hturn.guarded hg'⟩

theorem accounts_of_makes {m m' : Machine} {move : Move} {e : Entry} (h : Makes m move e m')
    (hg : Guarded m.connection m.pending) :
    ∃ o, m.connection.exec move.outside e.task = some o ∧ e.effects = o.effects ∧
      m.Accounts m' e.task o := by
  obtain @⟨task, others, o, ho, rfl, hc, hp, hsource⟩ := h
  have hturn := exec_turn ho
  obtain ⟨hpoised, hheld, hguarded⟩ := held_where_poised hturn hg hsource
  have hledger := hturn.ledger hpoised
  refine ⟨o, ho, rfl, hturn, hc, by rw [hc, hp]; exact hguarded, ?_⟩
  have hleft : m'.held = itemsOf o.connection.session.resources +
      (((o.next ++ o.started.flatten).flatMap Task.owed : List Item) + owed others) := by
    unfold Machine.held
    rw [hc, hp, owed_add, Multiset.coe_add, owed_coe]
  rw [hheld, hleft]
  -- What the other tasks owe stands on both sides of the ledger of the step.
  unfold Outcome.taken
  generalize ((task.brings m.connection ++ o.effects.filterMap Effect.taken : List Item) :
    Multiset Item) = takes at hledger ⊢
  generalize ((task.stops ++ o.effects.filterMap Effect.given : List Item) : Multiset Item) =
    gives at hledger ⊢
  calc _ = owed others + (takes + (itemsOf m.connection.session.resources +
        (task.owed : Multiset Item))) := by ac_rfl
    _ = _ := by
      rw [hledger]
      ac_rfl

end SerialLink.Connection
