-- Whom an event reaches. The handler that an emit calls knows its connection
-- and no attempt, so an event that comes late acts on the attempt that it finds
-- under way. All else that its thread does is for an attempt that it found.
import SerialLink.Proofs.Event.Owners

namespace SerialLink.Connection

open World (Act Step)

/-! ## What the thread of an event does -/

/-- A step that finds out which attempt is under way and acts on that. -/
def Task.finds : Task → Bool
  | .handle _ | .teardown none => true
  | _ => false

/-- What the thread of an event may have yet to do: find an attempt, or go on for one that is
`mine`. -/
def Task.Heeds (mine : Nat → Prop) : Task → Prop
  | .handle _ | .teardown none | .clearRing | .startFeeding _ => True
  | .clearListener _ | .stopReader _ | .unsubscribe _ | .closePort _ => True
  | .openPort n | .portOpened n .. | .setParameters n .. | .parametersSet n .. => mine n
  | .recordReader n _ | .startReader n _ | .startDrain n | .recordDrain n _ => mine n
  | .fail n _ | .notify n _ => mine n
  | _ => False

section Heeds

variable {mine more : Nat → Prop} {c : Connection} {task : Task} {o : Outcome} {x : Outside}
  {n : Nat}

theorem Task.Heeds.mono (ht : task.Heeds mine) (h : ∀ n, mine n → more n) :
    task.Heeds more := by
  cases task with
  | teardown a => cases a <;> exact ht
  | openPort | portOpened | setParameters | parametersSet => exact h _ ht
  | recordReader | startReader | startDrain | recordDrain => exact h _ ht
  | fail | notify => exact h _ ht
  | _ => exact ht

theorem Task.Heeds.not_worker (ht : task.Heeds mine) : task.isWorker = false := by
  cases task <;> first | rfl | exact ht.elim

theorem heeds_of_release (ht : task.isRelease) : task.Heeds mine := by
  cases task <;> simp [Task.isRelease] at ht <;> trivial

theorem heeds_releaseTasks {r : Resources} {notice : Notice} (hn : mine n) :
    ∀ t ∈ releaseTasks r ++ [.notify n notice], t.Heeds mine := by
  intro t ht
  rcases List.mem_append.mp ht with ht | ht
  · exact heeds_of_release (isRelease_of_mem ht)
  · rw [List.mem_singleton.mp ht]
    exact hn

theorem mine_of_fails {e : ConnectionError} (ht : task.Heeds mine) (hf : Fails c task n e)
    (found : task.finds → mine c.session.attempt) : mine n := by
  cases hf with
  | denial => exact found rfl
  | request => exact ht.elim
  | _ => exact ht

/-- What is left to the thread is for attempts that are `mine`, if one that is found is. -/
theorem Turn.leaves_heeds (h : Turn c task o) (ht : task.Heeds mine)
    (found : task.finds → mine c.session.attempt) : ∀ t ∈ o.next, t.Heeds mine := by
  cases h with
  | worker hw =>
    rw [ht.not_worker] at hw
    cases hw
  | aside _ _ _ hn =>
    intro t hmem
    obtain ⟨data, port, rfl, rfl⟩ := hn t hmem
    exact ht.elim
  | failing hf =>
    intro t hmem
    rw [List.mem_singleton.mp hmem]
    exact mine_of_fails ht hf found
  | @torn a =>
    cases a with
    | none => exact heeds_releaseTasks (found rfl)
    | some => exact ht.elim
  | failed => exact heeds_releaseTasks ht
  | granted => simpa [Task.Heeds] using found rfl
  | begun | requesting | letGo => exact ht.elim
  | opening | portRecorded | configuring | configured | readerRecorded | readerStarted |
    drainStarted | completed => simpa [Task.Heeds] using ht
  | _ => simp [Task.Heeds]

/-- The thread changes the session of an attempt that is `mine`, or of none. -/
theorem Turn.heeds_session (h : Turn c task o) (ht : task.Heeds mine)
    (found : task.finds → mine c.session.attempt) : o.connection.session = c.session ∨
      mine c.session.attempt ∧ o.connection.session.attempt = c.session.attempt := by
  have hconnecting : ∀ {n}, mine n → c.isConnecting n → mine c.session.attempt := by
    intro n hn hc
    exact ((isConnecting_iff _ _).mp hc).1 ▸ hn
  cases h with
  | worker hw =>
    rw [ht.not_worker] at hw
    cases hw
  | aside _ hc => exact Or.inl hc.session
  | begun | letGo => exact ht.elim
  | granted => exact Or.inr ⟨found rfl, rfl⟩
  | portRecorded hc | readerRecorded hc | completed hc => exact Or.inr ⟨hconnecting ht hc, rfl⟩
  | failed hn => exact Or.inr ⟨hn ▸ ht, by rw [ended_session]⟩
  | @torn a =>
    cases a with
    | none => exact Or.inr ⟨found rfl, by rw [ended_session]⟩
    | some => exact ht.elim
  | _ => exact Or.inl rfl

theorem not_handed (h : c.exec x task = some o) (ht : task.Heeds mine) {drain : Nat}
    {batch : Bytes} : .delivered drain batch ∉ o.effects := by
  intro hmem
  by_cases hcarries : task.carries = true
  · cases task <;> simp [Task.carries] at hcarries <;> try exact ht
    cases h
    cases hmem
  · have hquiet := (exec_sameBytes h (by simpa using hcarries)).quiet
    have hp : Passage.delivered batch ∈ o.effects.filterMap Effect.passage :=
      List.mem_filterMap.mpr ⟨_, hmem, rfl⟩
    rw [hquiet] at hp
    cases hp

end Heeds

/-! ## Any acts later on -/

namespace World

/-- What was there is there as it was. -/
structure Grows (w w' : World) : Prop where
  connections : ∀ {n c}, w.connection? n = some c → w'.connection? n = some c
  threads : ∀ {n thread l}, w.thread? n thread = some l → w'.thread? n thread = some l

theorem Started.grows {w w' : World} (h : Started w w') : Grows w w' :=
  ⟨fun hc => (h.connections _).trans hc, h.threads⟩

theorem grows_add (w : World) (c : Connection) : Grows w (w.add c).2 := by
  refine ⟨fun {n d} hd => ?_, thread?_add⟩
  rw [connection?_add, if_neg, hd]
  rintro rfl
  rw [connection?, List.getElem?_eq_none (Nat.le_refl _)] at hd
  cases hd

end World

namespace Course

/-- What holds of no later step, and is kept when nothing is done but what was there is there as it
was, and by every later step, holds after any acts. -/
theorem later_induction {acts : List Act} {I : List Step → World → Prop}
    (start : I [] (of acts).world)
    (rest : ∀ {late w w'}, I late w → World.Grows w w' → I late w')
    (step : ∀ {late r s m m'}, Coherent r → I late r.world → Took r.world s m m' →
      I (late ++ [s]) s.after)
    (more : List Act) : I (later acts more) (of (acts ++ more)).world := by
  suffices h : (of acts).steps ++ later acts more = (of (acts ++ more)).steps ∧
      I (later acts more) (of (acts ++ more)).world from h.2
  induction more using List.reverseRecOn with
  | nil =>
    unfold later
    rw [List.append_nil, List.drop_length, List.append_nil]
    exact ⟨rfl, start⟩
  | append_singleton more a ih =>
    obtain ⟨hsteps, hI⟩ := ih
    have hdoes := does_act (of (acts ++ more)) a
    have hcoherent := coherent_of_acts (acts ++ more)
    rw [← of_snoc, List.append_assoc] at hdoes
    unfold later at hsteps hI ⊢
    generalize of (acts ++ (more ++ [a])) = r' at hdoes
    cases hdoes with
    | nothing => exact ⟨hsteps, hI⟩
    | added => exact ⟨hsteps, rest hI (World.grows_add ..)⟩
    | emitted => exact ⟨hsteps, rest hI (World.started_emit ..).grows⟩
    | stepped took =>
      dsimp only
      rw [← hsteps, List.append_assoc, List.drop_left]
      exact ⟨rfl, step hcoherent (by simpa using hI) took⟩

end Course

/-! ## The thread of an event -/

namespace World

/-- A handler that is called has a thread that is about to handle the event. -/
theorem thread_of_calls {w : World} {kind : DeviceEventKind} {handlers : List Nat}
    {n thread : Nat} {m : Machine} (hm : w.machines[n]? = some m)
    (h : (n, thread) ∈ (w.calls kind handlers).1) :
    (w.calls kind handlers).2.thread? n thread = some [.handle kind] := by
  induction handlers generalizing w m with
  | nil => cases h
  | cons first rest ih =>
    have hrest : w.calls kind (first :: rest) =
        let spawned := w.spawn first [.handle kind]
        ((first, spawned.1) :: (spawned.2.calls kind rest).1, (spawned.2.calls kind rest).2) := rfl
    rw [hrest] at h ⊢
    rcases List.mem_cons.mp h with h | h
    · obtain ⟨rfl, rfl⟩ := Prod.mk.inj h
      have hthread : (w.spawn n [.handle kind]).1 = m.threads.length := by
        unfold spawn
        rw [hm]
        rfl
      refine (started_calls _ kind rest).threads ?_
      rw [hthread]
      exact (thread?_spawn hm _).2
    · have hc : (w.spawn first [.handle kind]).2.connection? n = some m.connection := by
        rw [(started_spawn w first _).connections]
        exact congrArg (Option.map Machine.connection) hm
      obtain ⟨m', hm', _⟩ := Option.map_eq_some_iff.mp hc
      exact ih hm' h

theorem told_of_delivers {w : World} {event : DeviceEvent} {sub : Subscription Nat} {thread : Nat}
    (h : w.Delivers event sub thread) :
    sub ∈ w.events.subscribers.live ∧ sub.deviceId = event.deviceId := by
  obtain ⟨hlive, hid⟩ := List.mem_filter.mp (List.of_mem_zip h).1
  exact ⟨hlive, by simpa using hid⟩

/-- What a step is to its own thread. -/
theorem own_of_step {w w' : World} {n thread : Nat} {x : Outside} {effects : List Effect}
    (h : w.step n thread x = some (effects, w')) :
    ∃ c task rest o, w.connection? n = some c ∧ w.thread? n thread = some (task :: rest) ∧
      c.exec (w.numbered x) task = some o ∧ effects = o.effects ∧
      w'.connection? n = some o.connection ∧ w'.thread? n thread = some (o.next ++ rest) := by
  obtain ⟨m, m', _, hm⟩ := moves_of_step h
  have hn := (List.getElem?_eq_some_iff.mp hm.machine).1
  have htaken := hm.taken
  unfold Machine.step at htaken
  split at htaken
  · rename_i task rest ht
    obtain ⟨o, ho, hmade⟩ := Option.map_eq_some_iff.mp htaken
    obtain ⟨rfl, rfl⟩ := Prod.mk.inj hmade
    have hlt := (List.getElem?_eq_some_iff.mp ht).1
    refine ⟨m.connection, task, rest, o, ?_, ?_, ho, rfl, ?_, ?_⟩
    · exact congrArg (Option.map Machine.connection) hm.machine
    · unfold thread?
      rw [hm.machine, Option.bind_some, ht]
    · unfold connection?
      rw [hm.machines, List.getElem?_set_self hn]
      rfl
    · unfold thread?
      rw [hm.machines, List.getElem?_set_self hn, Option.bind_some,
        List.getElem?_append_left (by rw [List.length_set]; exact hlt),
        List.getElem?_set_self hlt]
  · cases htaken

end World

/-- A thread found this attempt under way. -/
def Found (steps : List Step) (n thread b : Nat) : Prop :=
  ∃ s ∈ steps, s.connection = n ∧ s.thread = thread ∧ s.task.finds = true ∧
    (s.before.connection? n).map (·.session.attempt) = some b

/-- A step that is nothing to other connections, nor to attempts that are not `mine`. -/
structure World.Step.Spares (mine : Nat → Prop) (s : Step) : Prop where
  others : ∀ k, k ≠ s.connection → s.after.connection? k = s.before.connection? k
  session : ∀ c c', s.before.connection? s.connection = some c →
    s.after.connection? s.connection = some c' → c'.session = c.session ∨
      mine c.session.attempt ∧ c'.session.attempt = c.session.attempt
  /-- What is given back is not what the attempt under way owns. -/
  given : ∀ i ∈ s.given, ∀ c, s.after.connection? s.connection = some c →
    i ∉ itemsOf c.session.resources
  told : ∀ b notice, .notified b notice ∈ s.effects → mine b
  handed : ∀ drain batch, .delivered drain batch ∉ s.effects

/-- What is known of the thread of an event behind these steps, where `e` was the attempt under way
when it was emitted. -/
structure Goes (n thread e : Nat) (late : List Step) (w : World) : Prop where
  tasks : ∃ l, w.thread? n thread = some l ∧ ∀ t ∈ l, t.Heeds (Found late n thread)
  onward : ∃ c, w.connection? n = some c ∧ e ≤ c.session.attempt
  found : ∀ b, Found late n thread b → e ≤ b
  steps : ∀ s ∈ late, s.connection = n → s.thread = thread → s.Spares (Found late n thread)

section Goes

variable {r : Course} {n thread e b : Nat} {late : List Step} {w w' : World} {s : Step}
  {m m' : Machine} {mine more : Nat → Prop}

theorem World.Step.Spares.mono (h : s.Spares mine) (hmore : ∀ b, mine b → more b) :
    s.Spares more :=
  ⟨h.others, fun c c' hc hc' => (h.session c c' hc hc').imp_right (And.imp_left (hmore _)), h.given,
    fun b notice hn => hmore b (h.told b notice hn), h.handed⟩

theorem found_snoc : Found (late ++ [s]) n thread b ↔ Found late n thread b ∨
    s.connection = n ∧ s.thread = thread ∧ s.task.finds = true ∧
      (s.before.connection? n).map (·.session.attempt) = some b := by
  unfold Found
  simp only [List.mem_append, List.mem_singleton, or_and_right, exists_or, exists_eq_left]

theorem Goes.rest (h : Goes n thread e late w) (hg : World.Grows w w') :
    Goes n thread e late w' := by
  obtain ⟨l, hl, hheeds⟩ := h.tasks
  obtain ⟨c, hc, hle⟩ := h.onward
  exact ⟨⟨l, hg.threads hl, hheeds⟩, ⟨c, hg.connections hc, hle⟩, h.found, h.steps⟩

/-- A step of a thread that heeds its attempts. -/
theorem spares_of_heeds (hr : Coherent r) (took : Took r.world s m m')
    (ht : s.task.Heeds mine)
    (found : s.task.finds → mine m.connection.session.attempt) : s.Spares mine := by
  obtain ⟨x, hx⟩ := took.taken
  obtain ⟨move, hmakes⟩ := took.makes
  obtain ⟨o, ho, he, hacc⟩ := accounts_of_makes hmakes (hr.sound took.machine).guarded
  dsimp only at ho he hacc
  have hbefore : s.before.connection? s.connection = some m.connection :=
    took.started.grows.connections (congrArg (Option.map Machine.connection) took.machine)
  refine ⟨(World.stepped_of_step hx).others, ?_, ?_, ?_, ?_⟩
  · intro c c' hc hc'
    obtain rfl : m.connection = c := Option.some.inj (hbefore.symm.trans hc)
    obtain rfl : m'.connection = c' := Option.some.inj (took.connection.symm.trans hc')
    rw [hacc.connection]
    exact hacc.turn.heeds_session ht found
  · intro i hi c hc hmem
    obtain rfl : m'.connection = c := Option.some.inj (took.connection.symm.trans hc)
    exact (hr.passes took).given i hi (Multiset.mem_add.mpr (Or.inl (Multiset.mem_coe.mpr hmem)))
  · intro b notice hb
    rw [(told_alone hacc.turn (he ▸ hb)).1] at ht
    exact ht
  · exact fun drain batch hb => not_handed ho ht (he ▸ hb)

/-- A step of the thread itself. -/
theorem Goes.step_own (h : Goes s.connection s.thread e late r.world) (hr : Coherent r)
    (took : Took r.world s m m') : Goes s.connection s.thread e (late ++ [s]) s.after := by
  obtain ⟨x, hx⟩ := took.taken
  obtain ⟨c, task, rest, o, hc, hl, ho, _, hc', hl'⟩ := World.own_of_step hx
  obtain ⟨l, hthread, hheeds⟩ := h.tasks
  obtain rfl : l = task :: rest := Option.some.inj ((took.started.threads hthread).symm.trans hl)
  obtain rfl : task = s.task := by
    have hhead := took.head
    rw [hl] at hhead
    exact Option.some.inj hhead
  obtain ⟨d, hd, hle⟩ := h.onward
  have hm : r.world.connection? s.connection = some m.connection :=
    congrArg (Option.map Machine.connection) took.machine
  obtain rfl : m.connection = d := Option.some.inj (hm.symm.trans hd)
  obtain rfl : m.connection = c :=
    Option.some.inj ((took.started.grows.connections hm).symm.trans hc)
  have hmore : ∀ b, Found late s.connection s.thread b →
      Found (late ++ [s]) s.connection s.thread b := fun b hb => found_snoc.mpr (Or.inl hb)
  -- The attempt under way is found by this step, if the step finds one.
  have hfound : s.task.finds = true →
      Found (late ++ [s]) s.connection s.thread m.connection.session.attempt := fun hf =>
    found_snoc.mpr (Or.inr ⟨rfl, rfl, hf, by rw [hc]; rfl⟩)
  have htask : s.task.Heeds (Found (late ++ [s]) s.connection s.thread) :=
    (hheeds _ List.mem_cons_self).mono hmore
  refine ⟨⟨_, hl', ?_⟩, ⟨_, hc', Nat.le_trans hle (exec_turn ho).attempt_le⟩, ?_, ?_⟩
  · intro t ht
    rcases List.mem_append.mp ht with ht | ht
    · exact (exec_turn ho).leaves_heeds htask hfound t ht
    · exact (hheeds t (List.mem_cons_of_mem _ ht)).mono hmore
  · intro b hb
    rcases found_snoc.mp hb with hb | ⟨_, _, _, hb⟩
    · exact h.found b hb
    · rw [hc] at hb
      exact Option.some.inj hb ▸ hle
  · intro f hf hn hthread
    rcases List.mem_append.mp hf with hf | hf
    · exact (h.steps f hf hn hthread).mono hmore
    · obtain rfl := List.mem_singleton.mp hf
      exact spares_of_heeds hr took htask hfound

/-- A step of another thread. -/
theorem Goes.step_other (h : Goes n thread e late r.world) (took : Took r.world s m m')
    (hne : ¬ (s.connection = n ∧ s.thread = thread)) :
    Goes n thread e (late ++ [s]) s.after := by
  obtain ⟨x, hx⟩ := took.taken
  have hother := World.stepped_of_step hx
  obtain ⟨l, hl, hheeds⟩ := h.tasks
  obtain ⟨c, hc, hle⟩ := h.onward
  have hmore : ∀ b, Found late n thread b → Found (late ++ [s]) n thread b :=
    fun b hb => found_snoc.mpr (Or.inl hb)
  have hc' := took.started.grows.connections hc
  refine ⟨⟨l, ?_, fun t ht => (hheeds t ht).mono hmore⟩, ?_, ?_, ?_⟩
  · refine hother.threads ?_ (took.started.threads hl)
    exact fun hn hthread => hne ⟨hn.symm, hthread.symm⟩
  · by_cases hn : n = s.connection
    · subst hn
      obtain ⟨d, _, _, o, hd, _, ho, hd'⟩ := hother.own
      obtain rfl : c = d := Option.some.inj (hc'.symm.trans hd)
      exact ⟨_, hd', Nat.le_trans hle (exec_turn ho).attempt_le⟩
    · exact ⟨c, (hother.others n hn).trans hc', hle⟩
  · intro b hb
    rcases found_snoc.mp hb with hb | ⟨hn, hthread, _⟩
    · exact h.found b hb
    · exact absurd ⟨hn, hthread⟩ hne
  · intro f hf hn hthread
    rcases List.mem_append.mp hf with hf | hf
    · exact (h.steps f hf hn hthread).mono hmore
    · rw [List.mem_singleton.mp hf] at hn hthread
      exact absurd ⟨hn, hthread⟩ hne

theorem Goes.step (h : Goes n thread e late r.world) (hr : Coherent r)
    (took : Took r.world s m m') : Goes n thread e (late ++ [s]) s.after := by
  by_cases hown : s.connection = n ∧ s.thread = thread
  · obtain ⟨rfl, rfl⟩ := hown
    exact h.step_own hr took
  · exact h.step_other took hown

end Goes

/-! ## The law -/

/-- Attempt `b` came behind attempt `a`, and the event of a subscription of `a` comes late for it:
`b` had not begun when the event was emitted, or `a` was over then and its subscription had yet to
be ended. -/
structure ComesLate (w : World) (sub : Subscription Nat) (a b : Nat) : Prop where
  newer : a < b
  late : ∃ m, w.machines[sub.handler]? = some m ∧
    (m.connection.session.attempt < b ∨ .unsubscribe sub.id ∈ m.pending)

/-- Whom an event reaches that is emitted behind these acts and goes to a subscription that attempt
`a` made. -/
structure Reaches (before : List Act) (event : DeviceEvent) (sub : Subscription Nat)
    (thread a : Nat) : Prop where
  made : (Course.of before).Made sub.handler sub.id a
  once : ∀ n b, (Course.of before).Made n sub.id b → n = sub.handler ∧ b = a
  standing : ¬ (Course.of before).Removed sub.id
  device : ∃ c, (Course.of before).world.connection? sub.handler = some c ∧
    c.device.identifier = event.deviceId
  /-- No other connection is touched, and no attempt but those that the thread finds. -/
  spares : ∀ more, ∀ s ∈ Course.later (before ++ [.emit event]) more,
    s.connection = sub.handler → s.thread = thread →
      s.Spares (Found (Course.later (before ++ [.emit event]) more) sub.handler thread)
  /-- It finds the attempt that subscribed, or it comes late. -/
  found : ∀ more b, Found (Course.later (before ++ [.emit event]) more) sub.handler thread b →
    b = a ∨ ComesLate (Course.of before).world sub a b

/-- An event reaches the attempt that subscribed for it, or it comes late and reaches the one that
it finds. -/
theorem an_event_reaches_its_own_attempt_or_comes_late (before : List Act) (event : DeviceEvent)
    (sub : Subscription Nat) (thread : Nat)
    (delivers : (Course.of before).world.Delivers event sub thread) :
    ∃ a, Reaches before event sub thread a := by
  have hcoherent := coherent_of_acts before
  obtain ⟨hlive, hid⟩ := World.told_of_delivers delivers
  obtain ⟨m, hm, hdevice, hheld⟩ := hcoherent.live sub hlive
  have hc : (Course.of before).world.connection? sub.handler = some m.connection :=
    congrArg (Option.map Machine.connection) hm
  obtain ⟨a, ha, hmade⟩ := hcoherent.made hm hheld
  -- The attempt under way made the subscription, or it has yet to be ended.
  have hwhose : m.connection.session.attempt = a ∨ .unsubscribe sub.id ∈ m.pending := by
    rcases Multiset.mem_add.mp hheld with howns | howes
    · have hsub := mem_itemsOf_subscription.mp (Multiset.mem_coe.mp howns)
      exact Or.inl (hcoherent.once (hcoherent.own hm hsub) hmade).2
    · exact Or.inr (unsubscribe_of_owed howes)
  have hgoes : ∀ more, Goes sub.handler thread m.connection.session.attempt
      (Course.later (before ++ [.emit event]) more)
      (Course.of (before ++ [.emit event] ++ more)).world := by
    have hemit : (Course.of (before ++ [.emit event])).world =
        ((Course.of before).world.emit event).2 := by rw [Course.of_snoc]; rfl
    have hstarted := World.started_emit (Course.of before).world event
    have htasks := World.thread_of_calls hm (List.of_mem_zip delivers).2
    refine fun more => Course.later_induction (I := Goes sub.handler thread _) ?_
      (fun h hg => h.rest hg) (fun hr h took => h.step hr took) more
    rw [hemit]
    refine ⟨⟨_, htasks, ?_⟩, ⟨_, hstarted.grows.connections hc, Nat.le_refl _⟩, ?_, ?_⟩
    · exact fun t ht => List.mem_singleton.mp ht ▸ trivial
    · rintro b ⟨s, hs, _⟩
      cases hs
    · exact fun s hs => (List.not_mem_nil hs).elim
  refine ⟨a, hmade, fun n b hb => hcoherent.once hb hmade, ?_, ⟨_, hc, hdevice.trans hid⟩,
    fun more => (hgoes more).steps, ?_⟩
  · exact fun hgone => (hcoherent.gone hgone).2 sub hlive rfl
  · intro more b hb
    have hle := (hgoes more).found b hb
    rcases Nat.eq_or_lt_of_le (Nat.le_trans ha hle) with heq | hlt
    · exact Or.inl heq.symm
    · refine Or.inr ⟨hlt, m, hm, ?_⟩
      rcases hwhose with hsame | howes
      · exact Or.inl (hsame ▸ hlt)
      · exact Or.inr howes

/-- A host that has to ask its user before it opens a device. -/
def Outside.asking : Outside :=
  { subscribe := .ok 0, permitted := false, requestPermission := .ok ()
    openPort := fun _ => .ok (), packetSize := fun _ => 64
    setParameters := fun _ _ => .ok (), write := fun _ data => .ok data.length
    read := fun _ _ => none }

/-- The grant of a device reaches the attempt that waits for it. -/
theorem a_grant_reaches_the_attempt_that_waits :
    let before : List Act :=
      [.add ⟨"usb", Vendor.ftdi, 0x6001, none, none⟩ {} {}, .call 0 .connect .asking]
    let event : DeviceEvent := ⟨"usb", .permissionGranted⟩
    (Course.of before).world.Delivers event ⟨1, "usb", 0⟩ 1 ∧
      ∃ a, Reaches before event ⟨1, "usb", 0⟩ 1 a := by
  intro before event
  have delivers : (Course.of before).world.Delivers event ⟨1, "usb", 0⟩ 1 := by decide +kernel
  exact ⟨delivers, an_event_reaches_its_own_attempt_or_comes_late before event _ 1 delivers⟩

/-- An event that comes late may end an attempt that never subscribed for it. Two connections share
a device and are told that it went away. The first handler tells its consumer, who disconnects the
other connection and connects it again; then the second handler is called, whose subscription is
long gone, and ends the new attempt. -/
theorem a_late_event_may_end_a_newer_attempt :
    let x : Outside := .asking
    let device : DeviceInfo := ⟨"usb", Vendor.ftdi, 0x6001, none, none⟩
    let event : DeviceEvent := ⟨"usb", .detached⟩
    let before : List Act :=
      [.add device {} {}, .add device {} {}, .call 0 .connect x, .call 1 .connect x]
    let between : List Act := List.replicate 4 (.step 0 1 x) ++
      [.call 1 .disconnect x, .step 1 2 x, .step 1 2 x, .call 1 .connect x]
    let session (acts : List Act) :=
      ((Course.of (before ++ [.emit event] ++ acts)).world.connection? 1).map (·.session)
    (Course.of before).world.Delivers event ⟨2, "usb", 1⟩ 1 ∧ (Course.of before).Made 1 2 1 ∧
      (Course.of (before ++ [.emit event] ++ between)).Removed 2 ∧
      session between = some ⟨.awaitingPermission, 2, { subscription := some 3 }⟩ ∧
      session (between ++ [.step 1 1 x, .step 1 1 x]) = some ⟨.disconnected, 2, {}⟩ := by
  decide +kernel

end SerialLink.Connection
