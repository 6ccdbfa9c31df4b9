-- A registry with every connection that it ever made. A handle outlives its
-- registration and may be connected again, so whether a device has one live
-- connection cannot be read off the registry: it is a law of all connections.
import SerialLink.Proofs.Connection.Cleanup
import SerialLink.Registry

namespace SerialLink

open Connection

/-! ## Entries under a key -/

section Entries

variable {κ β : Type} [DecidableEq κ] {key : κ} {value : β} {entries : List (κ × β)}

theorem mem_of_valueAt? (h : valueAt? key entries = some value) : (key, value) ∈ entries := by
  unfold valueAt? at h
  obtain ⟨e, he, rfl⟩ := Option.map_eq_some_iff.mp h
  have hkey : e.1 = key := by simpa using List.find?_some he
  rw [← hkey]
  exact List.mem_of_find?_eq_some he

theorem not_mem_of_valueAt?_none (h : valueAt? key entries = none) :
    key ∉ entries.map (·.1) := by
  unfold valueAt? at h
  rw [Option.map_eq_none_iff, List.find?_eq_none] at h
  intro hmem
  obtain ⟨e, he, hkey⟩ := List.mem_map.mp hmem
  exact h e he (by simpa using hkey)

/-- Where no key stands twice, an entry is what is found under its key. -/
theorem valueAt?_of_mem (hkeys : (entries.map (·.1)).Nodup) (h : (key, value) ∈ entries) :
    valueAt? key entries = some value := by
  cases hfound : valueAt? key entries with
  | none =>
    exact absurd (List.mem_map_of_mem h) (not_mem_of_valueAt?_none hfound)
  | some other =>
    have hother := mem_of_valueAt? hfound
    have hsame := List.inj_on_of_nodup_map hkeys h hother rfl
    rw [(Prod.mk.inj hsame).2]

end Entries

/-! ## Threads that are started -/

namespace Connection.World

/-- The connection with this number. -/
def connection? (w : World) (n : Nat) : Option Connection := w.machines[n]?.map (·.connection)

/-- What a thread of a connection has yet to do. -/
def thread? (w : World) (n thread : Nat) : Option (List Task) :=
  w.machines[n]?.bind (·.threads[thread]?)

/-- Starts to disconnect connections, each on a thread of its own. -/
def disconnects (w : World) (numbers : List Nat) : World :=
  numbers.foldl (fun w n => (w.spawn n Call.disconnect.tasks).2) w

/-- Threads were started at most. -/
structure Started (w w' : World) : Prop where
  connections : ∀ n, w'.connection? n = w.connection? n
  threads : ∀ {n thread l}, w.thread? n thread = some l → w'.thread? n thread = some l

theorem Started.refl (w : World) : Started w w := ⟨fun _ => rfl, id⟩

theorem Started.trans {w w' w'' : World} (h : Started w w') (h' : Started w' w'') :
    Started w w'' :=
  ⟨fun n => (h'.connections n).trans (h.connections n), fun ht => h'.threads (h.threads ht)⟩

theorem started_spawn (w : World) (n : Nat) (tasks : List Task) :
    Started w (w.spawn n tasks).2 := by
  unfold spawn
  rcases hm : w.machines[n]? with _ | m
  · exact .refl w
  · refine ⟨?_, ?_⟩
    · intro k
      unfold connection?
      dsimp only [Machine.spawn]
      rw [List.getElem?_set]
      by_cases hk : n = k
      · subst hk
        rw [if_pos rfl, hm, if_pos (List.getElem?_eq_some_iff.mp hm).1]
        rfl
      · rw [if_neg hk]
    · intro k thread l ht
      unfold thread? at ht ⊢
      dsimp only [Machine.spawn]
      rw [List.getElem?_set]
      by_cases hk : n = k
      · subst hk
        rw [hm, Option.bind_some] at ht
        rw [if_pos rfl, if_pos (List.getElem?_eq_some_iff.mp hm).1, Option.bind_some]
        exact (List.getElem?_append_left (List.getElem?_eq_some_iff.mp ht).1).trans ht
      · rw [if_neg hk]
        exact ht

/-- The thread that is started is a new one. -/
theorem thread?_spawn {w : World} {n : Nat} {m : Machine} (hm : w.machines[n]? = some m)
    (tasks : List Task) :
    w.thread? n m.threads.length = none ∧
      (w.spawn n tasks).2.thread? n m.threads.length = some tasks := by
  unfold thread? spawn
  simp only [hm, Machine.spawn, Option.bind_some]
  refine ⟨List.getElem?_eq_none (Nat.le_refl _), ?_⟩
  rw [List.getElem?_set_self (List.getElem?_eq_some_iff.mp hm).1]
  simp

theorem started_disconnects (w : World) (numbers : List Nat) :
    Started w (w.disconnects numbers) := by
  unfold disconnects
  induction numbers generalizing w with
  | nil => exact .refl w
  | cons n rest ih => exact (started_spawn w n _).trans (ih _)

/-- Starts a thread for each of these handlers, and tells which. -/
def calls (w : World) (kind : DeviceEventKind) (handlers : List Nat) : List (Nat × Nat) × World :=
  callEach (fun connection w =>
    let (thread, w) := spawn w connection [.handle kind]
    ((connection, thread), w)) handlers w

theorem started_calls (w : World) (kind : DeviceEventKind) (handlers : List Nat) :
    Started w (w.calls kind handlers).2 := by
  unfold calls
  induction handlers generalizing w with
  | nil => exact .refl w
  | cons n rest ih => exact (started_spawn w n _).trans (ih _)

theorem started_emit (w : World) (event : DeviceEvent) : Started w (w.emit event).2 :=
  started_calls w event.kind (w.events.subscribers.handlersFor event.deviceId)

/-! ## A connection that is made, a thread that goes on -/

theorem connection?_add (w : World) (c : Connection) (n : Nat) :
    (w.add c).2.connection? n = if n = w.machines.length then some c else w.connection? n := by
  unfold add connection?
  dsimp only
  rw [List.getElem?_append]
  by_cases hn : n = w.machines.length
  · simp [hn]
  · rw [if_neg hn]
    split
    · rfl
    · rw [List.getElem?_eq_none (by simp; omega), List.getElem?_eq_none (by omega)]

theorem thread?_add {w : World} {c : Connection} {n thread : Nat} {l : List Task}
    (h : w.thread? n thread = some l) : (w.add c).2.thread? n thread = some l := by
  obtain ⟨m, hm, ht⟩ := Option.bind_eq_some_iff.mp h
  unfold add thread?
  dsimp only
  rw [List.getElem?_append_left (List.getElem?_eq_some_iff.mp hm).1, hm]
  exact ht

theorem machines_applied (effects : List Effect) (n : Nat) (deviceId : String) (w : World) :
    (effects.foldl (fun w e => w.apply n deviceId e) w).machines = w.machines := by
  induction effects generalizing w with
  | nil => rfl
  | cons e rest ih =>
    rw [List.foldl_cons, ih]
    cases e <;> rfl

/-- What a step of a thread does: its connection makes a step, and the other connections and
threads stay as they are. -/
structure Stepped (w : World) (n thread : Nat) (x : Outside) (w' : World) : Prop where
  own : ∃ c task rest o, w.connection? n = some c ∧ w.thread? n thread = some (task :: rest) ∧
    c.exec x task = some o ∧ w'.connection? n = some o.connection
  others : ∀ k, k ≠ n → w'.connection? k = w.connection? k
  threads : ∀ {k t l}, (k = n → t ≠ thread) → w.thread? k t = some l → w'.thread? k t = some l

theorem stepped_of_step {w w' : World} {n thread : Nat} {x : Outside} {effects : List Effect}
    (h : w.step n thread x = some (effects, w')) : Stepped w n thread (w.numbered x) w' := by
  unfold step at h
  rcases hm : w.machines[n]? with _ | m
  · simp [hm] at h
  · simp only [hm, Option.bind_eq_bind, Option.bind_some] at h
    obtain ⟨⟨told, m'⟩, hs, h⟩ := Option.bind_eq_some_iff.mp h
    obtain ⟨rfl, rfl⟩ := Prod.mk.inj (Option.some.inj h)
    have hw := machines_applied told n m'.connection.device.identifier
      { w with machines := w.machines.set n m' }
    have hn : n < w.machines.length := (List.getElem?_eq_some_iff.mp hm).1
    unfold Machine.step at hs
    split at hs
    · rename_i task rest ht
      obtain ⟨o, ho, hmade⟩ := Option.map_eq_some_iff.mp hs
      obtain ⟨_, rfl⟩ := Prod.mk.inj hmade
      refine ⟨⟨m.connection, task, rest, o, ?_, ?_, ho, ?_⟩, ?_, ?_⟩
      · unfold connection?
        rw [hm]
        rfl
      · unfold thread?
        rw [hm]
        exact ht
      · unfold connection?
        rw [hw, List.getElem?_set_self hn]
        rfl
      · intro k hk
        unfold connection?
        rw [hw, List.getElem?_set_ne (Ne.symm hk)]
      · intro k t l hkt hl
        unfold thread? at hl ⊢
        rw [hw]
        by_cases hk : k = n
        · subst hk
          rw [hm, Option.bind_some] at hl
          rw [List.getElem?_set_self hn, Option.bind_some,
            getElem?_stepped (List.getElem?_eq_some_iff.mp hl).1, if_neg (Ne.symm (hkt rfl))]
          exact hl
        · rw [List.getElem?_set_ne (Ne.symm hk)]
          exact hl
    · cases hs

end Connection.World

/-! ## What makes a connection live -/

namespace Connection

variable {c : Connection} {x : Outside} {task : Task} {o : Outcome}

/-- Only a call to connect makes a connection live that was not. -/
theorem live_of_exec (h : c.exec x task = some o) (hlive : o.connection.state.isLive = true) :
    c.state.isLive = true ∨ task = .connect := by
  unfold state at hlive ⊢
  cases exec_turn h with
  | worker _ hc | aside _ hc => exact Or.inl (hc.session ▸ hlive)
  | begun => exact Or.inr rfl
  | refused => exact Or.inr rfl
  | granted _ hwaits => exact Or.inl (by rw [hwaits]; rfl)
  | completed hup =>
    unfold isConnecting at hup
    rw [Bool.and_eq_true, beq_iff_eq, beq_iff_eq] at hup
    exact Or.inl (by rw [hup.2]; rfl)
  | failed | torn => simp [ConnectionState.isLive] at hlive
  | letGo => exact Or.inl (by simpa using hlive)
  | _ => exact Or.inl hlive

/-- A disconnect leaves the connection at rest. -/
theorem not_live_of_disconnect (h : c.exec x (.teardown none) = some o) :
    o.connection.state.isLive = false := by
  unfold state
  rcases Option.some.inj h with rfl
  unfold stepTeardown
  split
  · exact congrArg (fun s => s.state.isLive) (ended_session c .disconnected)
  · rename_i hrest
    rw [Option.getD_none] at hrest
    exact eq_false_of_ne_true fun hlive => hrest ⟨rfl, hlive⟩

end Connection

/-! ## A registry and all of its connections -/

/-- A registry, and every connection that it ever made. -/
structure Fleet where
  config : ConnectionConfig
  registry : Registry := {}
  world : World := {}

namespace Fleet

/-- What can happen next. A call goes through a handle, which is the number of a connection. -/
inductive Act
  | getOrCreate (device : DeviceInfo)
  | get (identifier : String)
  | remove (identifier : String)
  | disconnectAll
  | call (connection : Nat) (call : Call)
  | emit (event : DeviceEvent)
  | step (connection thread : Nat) (x : Outside)

/-- A call needs a handle, and a connection that is registered has a handle that is not let go. -/
def takesCall (f : Fleet) (n : Nat) (call : Call) : Bool :=
  match f.world.machines[n]?, call with
  | none, _ => false
  | some m, .drop => m.takesCall .drop && !f.registry.numbers.contains n
  | some m, call => m.takesCall call

/-- What an act does. The registry forgets a connection before it disconnects it. -/
def act (f : Fleet) : Act → Fleet
  | .getOrCreate device =>
    let (_, registry, world) := f.registry.getOrCreate f.world device f.config
    { f with registry, world }
  | .get _ => f
  | .remove identifier =>
    let (removed, registry) := f.registry.remove identifier
    { f with registry, world := f.world.disconnects removed.toList }
  | .disconnectAll => { f with world := f.world.disconnects f.registry.numbers }
  | .call n call =>
    if f.takesCall n call then { f with world := (f.world.spawn n call.tasks).2 } else f
  | .emit event => { f with world := (f.world.emit event).2 }
  | .step n thread x =>
    match f.world.step n thread x with
    | some (_, world) => { f with world }
    | none => f

/-- What comes of a registry by these acts. -/
def of (config : ConnectionConfig) (acts : List Act) : Fleet := acts.foldl act { config }

theorem of_append (config : ConnectionConfig) (acts : List Act) (a : Act) :
    of config (acts ++ [a]) = (of config acts).act a := by
  unfold of
  rw [List.foldl_append]
  rfl

/-- The connection is waiting for its grant, connecting or connected. -/
def live (f : Fleet) (n : Nat) : Bool := ((f.world.connection? n).map (·.state.isLive)).getD false

/-- The identifier of the device that a connection is for. -/
def identifier? (f : Fleet) (n : Nat) : Option String :=
  (f.world.connection? n).map (·.device.identifier)

/-- No two connections to one device are live. -/
def OnePerDevice (f : Fleet) : Prop :=
  ∀ n m, f.live n = true → f.live m = true → f.identifier? n = f.identifier? m → n = m

/-! ## What an act does -/

/-- What an act does to the connections and to the entries of the registry, case by case. -/
inductive Does (f : Fleet) : Act → Fleet → Prop
  | started {a : Act} {f' : Fleet} (world : f.world.Started f'.world)
    (entries : f'.registry.entries.Sublist f.registry.entries)
    (forgets : ∀ e ∈ f.registry.entries, e ∉ f'.registry.entries → a = .remove e.1) : Does f a f'
  | made {device : DeviceInfo} {f' : Fleet} (new : f.registry.get device.identifier = none)
    (world : f'.world = (f.world.add (.new device f.config {})).2)
    (entries : f'.registry.entries =
      f.registry.entries ++ [(device.identifier, f.world.machines.length)]) :
    Does f (.getOrCreate device) f'
  | stepped {n thread : Nat} {x y : Outside} {f' : Fleet}
    (world : f.world.Stepped n thread y f'.world) (registry : f'.registry = f.registry) :
    Does f (.step n thread x) f'

theorem does_start {f f' : Fleet} {a : Act} (hw : f.world.Started f'.world)
    (hr : f'.registry = f.registry) : Does f a f' :=
  .started hw (hr ▸ .refl _) fun _ he hnot => absurd (hr ▸ he) hnot

theorem does_act (f : Fleet) (a : Act) : Does f a (f.act a) := by
  cases a with
  | getOrCreate device =>
    simp only [act, Registry.getOrCreate]
    split
    · exact does_start (.refl _) rfl
    · exact .made ‹_› rfl rfl
  | get identifier => exact does_start (.refl _) rfl
  | remove identifier =>
    refine .started (World.started_disconnects ..) List.filter_sublist ?_
    intro e he hnot
    have hkey : ¬ (e.1 != identifier) = true := fun h => hnot (List.mem_filter.mpr ⟨he, h⟩)
    rw [bne_iff_ne, not_not] at hkey
    rw [hkey]
  | disconnectAll => exact does_start (World.started_disconnects ..) rfl
  | call n call =>
    simp only [act]
    split
    · exact does_start (World.started_spawn ..) rfl
    · exact does_start (.refl _) rfl
  | emit event => exact does_start (World.started_emit ..) rfl
  | step n thread x =>
    simp only [act]
    split
    · exact .stepped (World.stepped_of_step ‹_›) rfl
    · exact does_start (.refl _) rfl

section Does

variable {f f' : Fleet} {a : Act} {n thread : Nat}

/-- A connection keeps its device. -/
theorem Does.device (h : Does f a f') {c : Connection} (hc : f.world.connection? n = some c) :
    ∃ c', f'.world.connection? n = some c' ∧ c'.device = c.device := by
  cases h with
  | started hw => exact ⟨c, (hw.connections n).trans hc, rfl⟩
  | made _ hw _ =>
    refine ⟨c, ?_, rfl⟩
    rw [hw, World.connection?_add]
    split
    · rename_i hn
      rw [hn, World.connection?, List.getElem?_eq_none (Nat.le_refl _)] at hc
      cases hc
    · exact hc
  | @stepped k _ _ _ _ hw =>
    by_cases hk : n = k
    · subst hk
      obtain ⟨d, task, rest, o, hd, _, ho, ho'⟩ := hw.own
      obtain rfl := Option.some.inj (hc.symm.trans hd)
      exact ⟨o.connection, ho', device_of_exec ho⟩
    · exact ⟨c, (hw.others n hk).trans hc, rfl⟩

theorem Does.identifier (h : Does f a f') {identifier : String}
    (hid : f.identifier? n = some identifier) : f'.identifier? n = some identifier := by
  obtain ⟨c, hc, rfl⟩ := Option.map_eq_some_iff.mp hid
  obtain ⟨c', hc', hdevice⟩ := h.device hc
  exact Option.map_eq_some_iff.mpr ⟨c', hc', congrArg _ hdevice⟩

/-- A connection comes up by a step of a call to connect. -/
theorem Does.connects (h : Does f a f') (hrest : f.live n = false) (hlive : f'.live n = true) :
    ∃ thread x rest, a = .step n thread x ∧
      f.world.thread? n thread = some (.connect :: rest) := by
  unfold live at hrest hlive
  cases h with
  | started hw =>
    rw [hw.connections n, hrest] at hlive
    cases hlive
  | made _ hw _ =>
    rw [hw, World.connection?_add] at hlive
    split at hlive
    · cases hlive
    · rw [hrest] at hlive
      cases hlive
  | @stepped k thread x _ _ hw =>
    by_cases hk : n = k
    · subst hk
      obtain ⟨c, task, rest, o, hc, ht, ho, hc'⟩ := hw.own
      rw [hc', Option.map_some, Option.getD_some] at hlive
      rw [hc, Option.map_some, Option.getD_some] at hrest
      rcases live_of_exec ho hlive with hup | rfl
      · rw [hrest] at hup
        cases hup
      · exact ⟨thread, x, rest, rfl, ht⟩
    · rw [hw.others n hk, hrest] at hlive
      cases hlive

/-- A disconnect that has yet to be done is still to be done, or its connection is at rest. -/
theorem Does.disconnects (h : Does f a f')
    (ht : f.world.thread? n thread = some Call.disconnect.tasks) :
    f'.world.thread? n thread = some Call.disconnect.tasks ∨ f'.live n = false := by
  cases h with
  | started hw => exact Or.inl (hw.threads ht)
  | made _ hw _ =>
    rw [hw]
    exact Or.inl (World.thread?_add ht)
  | @stepped k t _ _ _ hw =>
    by_cases hk : n = k ∧ thread = t
    · obtain ⟨rfl, rfl⟩ := hk
      obtain ⟨c, task, rest, o, hc, htask, ho, hc'⟩ := hw.own
      obtain ⟨rfl, _⟩ := List.cons.inj (Option.some.inj (htask.symm.trans ht))
      right
      unfold live
      rw [hc', Option.map_some, Option.getD_some]
      exact not_live_of_disconnect ho
    · exact Or.inl (hw.threads (fun hn hs => hk ⟨hn, hs⟩) ht)

end Does

/-! ## The entries of the registry -/

/-- Each identifier has one entry, and the entry is of a connection to that device. -/
structure Registered (f : Fleet) : Prop where
  keys : (f.registry.entries.map (·.1)).Nodup
  own : ∀ {identifier n}, (identifier, n) ∈ f.registry.entries →
    f.identifier? n = some identifier

theorem Registered.does {f f' : Fleet} {a : Act} (h : Registered f) (hd : Does f a f') :
    Registered f' := by
  have hown : ∀ {identifier n}, (identifier, n) ∈ f.registry.entries →
      f'.identifier? n = some identifier := fun hmem => hd.identifier (h.own hmem)
  cases hd with
  | started _ he => exact ⟨h.keys.sublist (he.map _), fun hmem => hown (he.subset hmem)⟩
  | stepped _ hr => exact ⟨hr ▸ h.keys, fun hmem => hown (hr ▸ hmem)⟩
  | @made device _ hnew hw he =>
    refine ⟨?_, ?_⟩
    · rw [he, List.map_append, List.nodup_append]
      refine ⟨h.keys, List.nodup_singleton _, ?_⟩
      intro key hkey other hother heq
      rw [List.map_singleton, List.mem_singleton] at hother
      rw [heq, hother] at hkey
      exact not_mem_of_valueAt?_none hnew hkey
    · intro identifier n hmem
      rw [he, List.mem_append, List.mem_singleton] at hmem
      rcases hmem with hmem | hmem
      · exact hown hmem
      · obtain ⟨rfl, rfl⟩ := Prod.mk.inj hmem
        unfold identifier?
        rw [hw, World.connection?_add, if_pos rfl]
        rfl

theorem registered (config : ConnectionConfig) (acts : List Act) :
    Registered (of config acts) := by
  induction acts using List.reverseRecOn with
  | nil => exact ⟨List.nodup_nil, nofun⟩
  | append_singleton acts a ih =>
    rw [of_append]
    exact ih.does (does_act _ a)

/-- Two registered connections to one device are the same one. -/
theorem Registered.one {f : Fleet} (h : Registered f) {n m : Nat} (hn : n ∈ f.registry.numbers)
    (hm : m ∈ f.registry.numbers) (hid : f.identifier? n = f.identifier? m) : n = m := by
  obtain ⟨⟨key, _⟩, hkey, rfl⟩ := List.mem_map.mp hn
  obtain ⟨⟨other, _⟩, hother, rfl⟩ := List.mem_map.mp hm
  rw [h.own hkey, h.own hother] at hid
  have hsame := List.inj_on_of_nodup_map h.keys hkey hother (Option.some.inj hid)
  exact congrArg Prod.snd hsame

/-! ## Connections that were removed -/

/-- Among these acts a call to connect brought a connection up that was at rest. -/
inductive Reconnected (config : ConnectionConfig) (past since : List Act) (n : Nat) : Prop
  | intro {early late : List Act} {thread : Nat} {x : Outside} {rest : List Task}
    (split : since = early ++ .step n thread x :: late)
    (rested : (of config (past ++ early)).live n = false)
    (calls : (of config (past ++ early)).world.thread? n thread = some (.connect :: rest))
    (up : (of config (past ++ early ++ [.step n thread x])).live n = true)

/-- A connection that may be live although it was removed: the disconnect that its removal began
has yet to be done, or the connection was connected again. -/
inductive Lingers (config : ConnectionConfig) (acts : List Act) (n : Nat) : Prop
  | intro {before since : List Act} {identifier : String} {thread : Nat}
    (removed : acts = before ++ .remove identifier :: since)
    (found : (of config before).registry.get identifier = some n)
    (new : (of config before).world.thread? n thread = none)
    (begun : (of config (before ++ [.remove identifier])).world.thread? n thread =
      some Call.disconnect.tasks)
    (cause : (of config acts).world.thread? n thread = some Call.disconnect.tasks ∨
      Reconnected config (before ++ [.remove identifier]) since n)

section Removed

variable {config : ConnectionConfig} {acts past before since : List Act} {n thread : Nat}
  {identifier : String}

theorem Reconnected.more (h : Reconnected config past since n) (a : Act) :
    Reconnected config past (since ++ [a]) n := by
  obtain @⟨early, late, thread, x, _, hsplit, hrest, hcalls, hup⟩ := h
  have hmore : since ++ [a] = early ++ .step n thread x :: (late ++ [a]) := by
    rw [hsplit, List.append_assoc, List.cons_append]
  exact .intro hmore hrest hcalls hup

/-- Behind a disconnect that was begun, it has yet to be done, the connection is at rest, or it was
connected again. -/
theorem rests_behind_disconnect
    (hbegun : (of config past).world.thread? n thread = some Call.disconnect.tasks)
    (since : List Act) :
    (of config (past ++ since)).world.thread? n thread = some Call.disconnect.tasks ∨
      (of config (past ++ since)).live n = false ∨ Reconnected config past since n := by
  induction since using List.reverseRecOn with
  | nil =>
    rw [List.append_nil]
    exact Or.inl hbegun
  | append_singleton since a ih =>
    have hdoes := does_act (of config (past ++ since)) a
    rw [← of_append] at hdoes
    rw [← List.append_assoc]
    rcases ih with ht | hrest | hagain
    · exact (hdoes.disconnects ht).imp_right Or.inl
    · cases hlive : (of config (past ++ since ++ [a])).live n with
      | false => exact Or.inr (Or.inl rfl)
      | true =>
        obtain ⟨_, x, rest, rfl, hcalls⟩ := hdoes.connects hrest hlive
        exact Or.inr (Or.inr ⟨rfl, hrest, hcalls, hlive⟩)
    · exact Or.inr (Or.inr (hagain.more a))

/-- The removal of a connection starts a thread that disconnects it. -/
theorem disconnect_of_remove (hfound : (of config before).registry.get identifier = some n) :
    ∃ thread, (of config before).world.thread? n thread = none ∧
      (of config (before ++ [.remove identifier])).world.thread? n thread =
        some Call.disconnect.tasks := by
  have hid := (registered config before).own (mem_of_valueAt? hfound)
  unfold identifier? World.connection? at hid
  rw [Option.map_map] at hid
  obtain ⟨m, hm, _⟩ := Option.map_eq_some_iff.mp hid
  obtain ⟨hnone, hsome⟩ := World.thread?_spawn hm Call.disconnect.tasks
  refine ⟨m.threads.length, hnone, ?_⟩
  rw [of_append]
  simp only [act, Registry.remove, hfound]
  exact hsome

/-- A removed connection is at rest or lingers. -/
theorem rests_or_lingers (hsplit : acts = before ++ .remove identifier :: since)
    (hfound : (of config before).registry.get identifier = some n) :
    (of config acts).live n = false ∨ Lingers config acts n := by
  obtain ⟨thread, hnew, hbegun⟩ := disconnect_of_remove hfound
  have hacts : acts = before ++ [.remove identifier] ++ since := by
    rw [hsplit, List.append_assoc, List.singleton_append]
  have hcases := rests_behind_disconnect hbegun since
  rw [← hacts] at hcases
  rcases hcases with ht | hrest | hagain
  · exact Or.inr ⟨hsplit, hfound, hnew, hbegun, Or.inl ht⟩
  · exact Or.inl hrest
  · exact Or.inr ⟨hsplit, hfound, hnew, hbegun, Or.inr hagain⟩

/-- A connection that is not registered was removed. -/
theorem removed_of_unregistered (hmade : ((of config acts).world.connection? n).isSome)
    (hnot : n ∉ (of config acts).registry.numbers) :
    ∃ before identifier since, acts = before ++ .remove identifier :: since ∧
      (of config before).registry.get identifier = some n := by
  induction acts using List.reverseRecOn with
  | nil => cases hmade
  | append_singleton acts a ih =>
    have hkeep : ((of config acts).world.connection? n).isSome →
        (∀ e ∈ (of config acts).registry.entries,
          e ∉ (of config (acts ++ [a])).registry.entries → a = .remove e.1) →
        ∃ before identifier since, acts ++ [a] = before ++ .remove identifier :: since ∧
          (of config before).registry.get identifier = some n := by
      intro hn hforgets
      by_cases hin : n ∈ (of config acts).registry.numbers
      · obtain ⟨⟨identifier, _⟩, he, rfl⟩ := List.mem_map.mp hin
        obtain rfl := hforgets _ he fun he' => hnot (List.mem_map_of_mem he')
        exact ⟨acts, identifier, [], rfl, valueAt?_of_mem (registered config acts).keys he⟩
      · obtain ⟨before, identifier, since, hsplit, hfound⟩ := ih hn hin
        refine ⟨before, identifier, since ++ [a], ?_, hfound⟩
        rw [hsplit, List.append_assoc, List.cons_append]
    have hdoes := does_act (of config acts) a
    rw [← of_append] at hdoes
    cases hdoes with
    | started hw _ hforgets => exact hkeep (hw.connections n ▸ hmade) hforgets
    | @stepped k _ _ _ _ hw hr =>
      refine hkeep ?_ fun e he he' => absurd (hr ▸ he) he'
      by_cases hk : n = k
      · subst hk
        obtain ⟨c, _, _, _, hc, _⟩ := hw.own
        rw [hc]
        rfl
      · rw [← hw.others n hk]
        exact hmade
    | made _ hw he =>
      by_cases hn : n = (of config acts).world.machines.length
      · refine absurd ?_ hnot
        unfold Registry.numbers
        rw [he, List.map_append, List.mem_append, hn]
        exact Or.inr (List.mem_singleton_self _)
      · rw [hw, World.connection?_add, if_neg hn] at hmade
        exact hkeep hmade fun e hmem hmem' => absurd (he ▸ List.mem_append_left _ hmem) hmem'

theorem made_of_live {f : Fleet} (h : f.live n = true) : (f.world.connection? n).isSome := by
  unfold live at h
  cases hc : f.world.connection? n with
  | none => simp [hc] at h
  | some c => rfl

end Removed

/-! ## The law -/

/-- What is left of one live connection for each device. -/
structure OneRegistered (config : ConnectionConfig) (acts : List Act) : Prop where
  /-- No identifier is registered twice, and its entry is of a connection to that device. -/
  registered : Registered (of config acts)
  /-- A live connection that is not registered was removed, and lingers. -/
  lingers : ∀ n, (of config acts).live n = true → n ∉ (of config acts).registry.numbers →
    Lingers config acts n
  /-- Of two live connections to one device, one lingers. -/
  beside : ∀ n m, n ≠ m → (of config acts).live n = true → (of config acts).live m = true →
    (of config acts).identifier? n = (of config acts).identifier? m →
    Lingers config acts n ∨ Lingers config acts m

/-- A device has a second live connection only while the disconnect of a removed one has yet to be
done, or after a removed one was connected again. -/
theorem only_a_removed_connection_lives_beside_another (config : ConnectionConfig)
    (acts : List Act) : OneRegistered config acts := by
  have hreg := registered config acts
  have hlingers : ∀ n, (of config acts).live n = true →
      n ∉ (of config acts).registry.numbers → Lingers config acts n := by
    intro n hlive hnot
    obtain ⟨before, identifier, since, hsplit, hfound⟩ :=
      removed_of_unregistered (made_of_live hlive) hnot
    rcases rests_or_lingers hsplit hfound with hrest | hl
    · rw [hrest] at hlive
      cases hlive
    · exact hl
  refine ⟨hreg, hlingers, ?_⟩
  intro n m hne hn hm hid
  by_cases hmem : n ∈ (of config acts).registry.numbers
  · have hother : m ∉ (of config acts).registry.numbers := fun h => hne (hreg.one hmem h hid)
    exact Or.inr (hlingers m hm hother)
  · exact Or.inl (hlingers n hn hmem)

/-- A connection that was removed may be connected again beside the one that took its place: both
wait for their grants. -/
theorem a_removed_connection_may_live_beside_another :
    let x : Outside :=
      { subscribe := .ok 0, permitted := false, requestPermission := .ok ()
        openPort := fun _ => .ok (), packetSize := fun _ => 64
        setParameters := fun _ _ => .ok (), write := fun _ data => .ok data.length
        read := fun _ _ => none }
    let device : DeviceInfo := ⟨"usb", Vendor.ftdi, 0x6001, none, none⟩
    ¬ (of {} [.getOrCreate device, .remove "usb", .step 0 0 x, .getOrCreate device,
      .call 1 .connect, .step 1 0 x, .call 0 .connect, .step 0 1 x]).OnePerDevice := by
  intro x device hone
  exact absurd (hone 0 1 (by decide +kernel) (by decide +kernel) (by decide +kernel)) (by decide)

end Fleet

end SerialLink
