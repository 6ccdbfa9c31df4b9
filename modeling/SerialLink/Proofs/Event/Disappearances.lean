-- What a watcher tells. It enumerates the devices again and again; what the
-- last successful enumeration had and this one has not was detached, and
-- whoever is subscribed to it by then is told once.
import SerialLink.Device
import SerialLink.Event.Hotplug
import SerialLink.Proofs.Event.Subscriptions

namespace SerialLink

namespace Hotplug

variable {Handler : Type}

/-! ## Histories -/

/-- What happens to a watcher, in turn. -/
inductive Action (Handler : Type)
  | subscribe (deviceId : String) (handler : Handler)
  | unsubscribe (id : Nat)
  /-- The watcher enumerates the devices. -/
  | poll (found : Except PortError (List DeviceInfo))
  | shutdown

/-- The identifiers of what was enumerated. -/
def identifiers (devices : List DeviceInfo) : List String := devices.map (·.identifier)

/-- A handler that is called, and what it is told. -/
abbrev Told (Handler : Type) := Handler × DeviceEvent

/-- Notes who is told what. -/
def note (handler : Handler) (event : DeviceEvent) (w : Hotplug Handler) :
    Told Handler × Hotplug Handler :=
  ((handler, event), w)

/-- One action: who is told what, and the watcher behind it. -/
def act (w : Hotplug Handler) : Action Handler → List (Told Handler) × Hotplug Handler
  | .subscribe deviceId handler => ([], (w.subscribe deviceId handler).2)
  | .unsubscribe id => ([], (w.unsubscribe id).2)
  | .poll found => w.poll (found.map identifiers) note
  | .shutdown => ([], w.shutdown)

/-- The watcher behind some actions. -/
def after (w : Hotplug Handler) (actions : List (Action Handler)) : Hotplug Handler :=
  actions.foldl (fun w action => (w.act action).2) w

/-- Who is told what in the course of some actions. -/
def calls (w : Hotplug Handler) : List (Action Handler) → List (Told Handler)
  | [] => []
  | action :: rest => (w.act action).1 ++ calls (w.act action).2 rest

theorem after_cons (w : Hotplug Handler) (action : Action Handler) (rest : List (Action Handler)) :
    w.after (action :: rest) = (w.act action).2.after rest := by
  simp [after]

theorem after_append (w : Hotplug Handler) (before rest : List (Action Handler)) :
    w.after (before ++ rest) = (w.after before).after rest := by
  simp [after]

theorem calls_append (w : Hotplug Handler) (before rest : List (Action Handler)) :
    w.calls (before ++ rest) = w.calls before ++ (w.after before).calls rest := by
  induction before generalizing w with
  | nil => simp [calls, after]
  | cons action before ih => simp [calls, ih, after_cons]

/-! ## What the actions say -/

/-- The action ends the subscription with this number. -/
def Action.ends (id : Nat) : Action Handler → Bool
  | .unsubscribe k => k == id
  | _ => false

/-- The action is an enumeration that failed. -/
def Action.fails : Action Handler → Bool
  | .poll (.error _) => true
  | _ => false

/-- The last enumeration that succeeded, `first` being the one that the watcher started with. -/
def lastSeen (first : List DeviceInfo) (actions : List (Action Handler)) : List DeviceInfo :=
  actions.foldl (fun seen action => match action with
    | .poll (.ok devices) => devices
    | _ => seen) first

/-- The handlers that are subscribed to a device behind some actions: each subscription stands until
it is ended. So many numbers were given out before. -/
def standing (given : Nat) (deviceId : String) : List (Action Handler) → List Handler
  | [] => []
  | .subscribe d handler :: rest =>
    (if d = deviceId ∧ !rest.any (Action.ends (given + 1)) then [handler] else []) ++
      standing (given + 1) deviceId rest
  | _ :: rest => standing given deviceId rest

/-- The device was there when the devices were last enumerated, and this enumeration finds that it
is gone. -/
structure Disappears (first : List DeviceInfo) (before : List (Action Handler))
    (found : Except PortError (List DeviceInfo)) (deviceId : String) : Prop where
  running : Action.shutdown ∉ before
  was : deviceId ∈ identifiers (lastSeen first before)
  gone : ∃ devices, found = .ok devices ∧ deviceId ∉ identifiers devices

/-- How often a device passes from present to absent along the successful enumerations, `seen` being
the last one so far. Behind the end of the watcher there are none. -/
def departures (deviceId : String) : List DeviceInfo → List (Action Handler) → Nat
  | _, [] => 0
  | seen, .poll (.ok devices) :: rest =>
    (if deviceId ∈ identifiers seen ∧ deviceId ∉ identifiers devices then 1 else 0) +
      departures deviceId devices rest
  | _, .shutdown :: _ => 0
  | seen, _ :: rest => departures deviceId seen rest

/-! ## One poll -/

theorem callEach_note (event : DeviceEvent) (handlers : List Handler) (w : Hotplug Handler) :
    callEach (fun handler w => note handler event w) handlers w =
      (handlers.map fun handler => (handler, event), w) := by
  induction handlers with
  | nil => simp [callEach]
  | cons handler rest ih =>
    unfold note at ih ⊢
    unfold callEach
    dsimp only
    rw [ih]
    simp

/-- What the handlers of a device are told when it was detached. -/
def tellings (w : Hotplug Handler) (deviceId : String) : List (Told Handler) :=
  (w.subscribers.handlersFor deviceId).map fun handler => (handler, ⟨deviceId, .detached⟩)

theorem tell_note (ids : List String) (w : Hotplug Handler) :
    tell note ids w = (ids.flatMap w.tellings, w) := by
  induction ids with
  | nil => simp [tell]
  | cons deviceId rest ih =>
    unfold tell
    dsimp only
    rw [callEach_note, ih]
    simp [tellings]

theorem act_poll (w : Hotplug Handler) (devices : List DeviceInfo) (hrun : w.running = true) :
    w.act (.poll (.ok devices)) = ((w.gone (identifiers devices)).flatMap w.tellings,
      { w with present := (identifiers devices).eraseDups }) := by
  unfold act poll
  simp [hrun, Except.map, tell_note]

theorem act_poll_of_stopped (w : Hotplug Handler) (found : Except PortError (List DeviceInfo))
    (hstop : w.running = false) : w.act (.poll found) = ([], w) := by
  unfold act poll
  simp [hstop]

theorem act_poll_of_error (w : Hotplug Handler) (e : PortError) :
    w.act (.poll (.error e)) = ([], w) := by
  unfold act poll
  cases w.running <;> simp [Except.map]

/-- No poll has to do with the subscriptions. -/
theorem subscribers_poll (w : Hotplug Handler) (found : Except PortError (List DeviceInfo)) :
    (w.act (.poll found)).2.subscribers = w.subscribers := by
  cases hrun : w.running with
  | false => rw [act_poll_of_stopped w found hrun]
  | true =>
    rcases found with e | devices
    · rw [act_poll_of_error]
    · rw [act_poll w devices hrun]

theorem mem_gone {w : Hotplug Handler} {ids : List String} {deviceId : String} :
    deviceId ∈ w.gone ids ↔ deviceId ∈ w.present ∧ deviceId ∉ ids := by
  simp [gone]

/-- Of a list without repetition each device is told of once. -/
theorem told_of_device (w : Hotplug Handler) {ids : List String} (hnodup : ids.Nodup)
    (deviceId : String) :
    ((ids.flatMap w.tellings).filter fun told => told.2.deviceId = deviceId) =
      if deviceId ∈ ids then w.tellings deviceId else [] := by
  induction ids with
  | nil => simp
  | cons d rest ih =>
    obtain ⟨hd, hrest⟩ := List.nodup_cons.mp hnodup
    rw [List.flatMap_cons, List.filter_append, ih hrest]
    by_cases hsame : d = deviceId
    · subst hsame
      simp [hd, tellings]
    · have hother : ((w.tellings d).filter fun told => told.2.deviceId = deviceId) = [] := by
        simp [tellings, hsame]
      simp [hother, Ne.symm hsame]

/-! ## The watcher and what was seen -/

/-- How a watcher stands that has seen these devices last. -/
structure Watches (w : Hotplug Handler) (seen : List DeviceInfo) : Prop where
  nodup : w.present.Nodup
  present : ∀ deviceId, deviceId ∈ w.present ↔ deviceId ∈ identifiers seen

theorem nodup_eraseDups (ids : List String) : ids.eraseDups.Nodup := by
  induction hlen : ids.length using Nat.strongRecOn generalizing ids with
  | ind n ih =>
    cases ids with
    | nil => simp
    | cons d rest =>
      have hshort : (rest.filter fun e => !e == d).length < n := by
        have := List.length_filter_le (fun e => !e == d) rest
        simp only [List.length_cons] at hlen
        omega
      rw [List.eraseDups_cons, List.nodup_cons]
      exact ⟨by simp, ih _ hshort _ rfl⟩

theorem watches_of_eraseDups {w : Hotplug Handler} {seen : List DeviceInfo}
    (h : w.present = (identifiers seen).eraseDups) : w.Watches seen := by
  constructor
  · rw [h]
    exact nodup_eraseDups _
  · simp [h]

theorem Watches.act {w : Hotplug Handler} {seen : List DeviceInfo} (h : w.Watches seen)
    (hrun : w.running = true) (action : Action Handler) :
    (w.act action).2.Watches (lastSeen seen [action]) := by
  cases action with
  | poll found =>
    rcases found with e | devices
    · rw [act_poll_of_error]
      exact h
    · rw [act_poll w devices hrun]
      apply watches_of_eraseDups
      simp [lastSeen]
  | subscribe | unsubscribe | shutdown => exact ⟨h.nodup, h.present⟩

theorem running_act (w : Hotplug Handler) {action : Action Handler} (h : action ≠ .shutdown) :
    (w.act action).2.running = w.running := by
  cases action with
  | poll found =>
    cases hrun : w.running with
    | false => rw [act_poll_of_stopped w found hrun, hrun]
    | true =>
      rcases found with e | devices
      · rw [act_poll_of_error, hrun]
      · rw [act_poll w devices hrun]
        simp [hrun]
  | shutdown => exact absurd rfl h
  | subscribe | unsubscribe => simp [act, Hotplug.subscribe, Hotplug.unsubscribe]

/-- A watcher that was not shut down has the last successful enumeration before it. -/
theorem Watches.after {w : Hotplug Handler} {seen : List DeviceInfo} (h : w.Watches seen)
    (hrun : w.running = true) {actions : List (Action Handler)}
    (hon : Action.shutdown ∉ actions) :
    (w.after actions).running = true ∧ (w.after actions).Watches (lastSeen seen actions) := by
  induction actions generalizing w seen with
  | nil => exact ⟨hrun, h⟩
  | cons action rest ih =>
    simp only [List.mem_cons, not_or] at hon
    obtain ⟨hne, hon⟩ := hon
    have hnext : (w.act action).2.Watches (lastSeen seen [action]) := h.act hrun action
    rw [after_cons]
    apply ih hnext
    · rw [running_act w (Ne.symm hne), hrun]
    · exact hon

/-- A watcher that was shut down tells nobody anything, whatever happens. -/
theorem calls_of_stopped {w : Hotplug Handler} (hstop : w.running = false)
    (actions : List (Action Handler)) :
    w.calls actions = [] ∧ (w.after actions).running = false := by
  induction actions generalizing w with
  | nil => exact ⟨by simp [calls], hstop⟩
  | cons action rest ih =>
    have hquiet : (w.act action).1 = [] ∧ (w.act action).2.running = false := by
      cases action with
      | poll found => rw [act_poll_of_stopped w found hstop]; exact ⟨rfl, hstop⟩
      | shutdown => simp [act, shutdown]
      | subscribe | unsubscribe => simp [act, Hotplug.subscribe, Hotplug.unsubscribe, hstop]
    rw [after_cons]
    unfold calls
    rw [hquiet.1, List.nil_append]
    exact ih hquiet.2

theorem running_of_shutdown {w : Hotplug Handler} {actions : List (Action Handler)}
    (hoff : Action.shutdown ∈ actions) : (w.after actions).running = false := by
  obtain ⟨before, rest, rfl⟩ := List.append_of_mem hoff
  rw [after_append, after_cons]
  exact (calls_of_stopped (by simp [act, shutdown]) rest).2

/-! ## Who is subscribed -/

/-- The subscriptions that stand behind some actions are those of before that were not ended, and
the new ones that were not. -/
theorem handlersFor_after (w : Hotplug Handler) (deviceId : String)
    (actions : List (Action Handler)) :
    (w.after actions).subscribers.handlersFor deviceId =
      (w.subscribers.live.filter fun sub =>
          sub.deviceId == deviceId && !actions.any (Action.ends sub.id)).map (·.handler) ++
        standing w.subscribers.lastId deviceId actions := by
  induction actions generalizing w with
  | nil => simp [after, standing, Subscribers.handlersFor]
  | cons action rest ih =>
    rw [after_cons, ih]
    cases action with
    | subscribe d handler =>
      simp only [act, Hotplug.subscribe, Subscribers.live_insert, List.filter_append,
        List.map_append, List.append_assoc, standing, List.any_cons, Action.ends, Bool.false_or]
      congr 2
      by_cases hd : d = deviceId <;>
        by_cases hend : rest.any (Action.ends (w.subscribers.lastId + 1)) = true <;>
        simp [hd, hend]
    | unsubscribe id =>
      simp only [act, Hotplug.unsubscribe, Subscribers.live_remove, Subscribers.lastId_remove,
        List.filter_filter, standing, List.any_cons, Action.ends]
      congr 3
      funext sub
      by_cases hid : id = sub.id
      · simp [hid]
      · have hne : (id == sub.id) = false ∧ (sub.id != id) = true := by simp [hid, Ne.symm hid]
        simp [hne.1, hne.2]
    | poll found =>
      rw [subscribers_poll]
      simp [standing, Action.ends]
    | shutdown => simp [act, shutdown, standing, Action.ends]

/-! ## One handler -/

/-- Of the handlers that `mine` picks out there is this one alone, with this subscription. -/
def Sole (w : Hotplug Handler) (mine : Handler → Bool) (sub : Subscription Handler) : Prop :=
  w.subscribers.live.filter (fun s => mine s.handler) = [sub]

variable {mine : Handler → Bool} {sub : Subscription Handler}

theorem mine_of_sole {w : Hotplug Handler} (h : w.Sole mine sub) (deviceId : String) :
    (w.tellings deviceId).filter (fun told => mine told.1) =
      if deviceId = sub.deviceId then [(sub.handler, ⟨deviceId, .detached⟩)] else [] := by
  have hlive : ((w.subscribers.live.filter fun s => s.deviceId == deviceId).filter fun s =>
      mine s.handler) = if deviceId = sub.deviceId then [sub] else [] := by
    rw [List.filter_filter]
    have hcomm : (fun s : Subscription Handler => mine s.handler && s.deviceId == deviceId) =
        fun s => s.deviceId == deviceId && mine s.handler := by
      funext s
      rw [Bool.and_comm]
    rw [hcomm, ← List.filter_filter, h]
    by_cases hd : deviceId = sub.deviceId
    · simp [hd]
    · simp [hd, Ne.symm hd]
  unfold tellings Subscribers.handlersFor
  rw [List.map_map, List.filter_map]
  simp only [Function.comp_def]
  rw [hlive]
  split <;> simp

/-- A device that appears in the list is told of to its own handler. -/
theorem mine_of_list {w : Hotplug Handler} (h : w.Sole mine sub) {ids : List String}
    (hnodup : ids.Nodup) :
    (ids.flatMap w.tellings).filter (fun told => mine told.1) =
      if sub.deviceId ∈ ids then [(sub.handler, ⟨sub.deviceId, .detached⟩)] else [] := by
  induction ids with
  | nil => simp
  | cons d rest ih =>
    obtain ⟨hd, hrest⟩ := List.nodup_cons.mp hnodup
    rw [List.flatMap_cons, List.filter_append, mine_of_sole h, ih hrest]
    by_cases hsame : d = sub.deviceId
    · rw [if_pos hsame, ← hsame, if_neg hd]
      simp
    · rw [if_neg hsame]
      simp [Ne.symm hsame]

/-- Nobody else who is picked out subscribes, and the subscription is not ended. -/
def Action.spares (mine : Handler → Bool) (id : Nat) : Action Handler → Prop
  | .subscribe _ handler => mine handler = false
  | .unsubscribe k => k ≠ id
  | _ => True

theorem Sole.act {w : Hotplug Handler} (h : w.Sole mine sub) {action : Action Handler}
    (ha : action.spares mine sub.id) : (w.act action).2.Sole mine sub := by
  unfold Sole at h ⊢
  cases action with
  | subscribe d handler =>
    have hnot : mine handler = false := ha
    simp [Hotplug.act, Hotplug.subscribe, Subscribers.live_insert, h, hnot]
  | unsubscribe id =>
    have hne : sub.id ≠ id := Ne.symm ha
    simp only [Hotplug.act, Hotplug.unsubscribe, Subscribers.live_remove]
    rw [List.filter_filter]
    simp only [Bool.and_comm (mine _)]
    rw [← List.filter_filter, h]
    simp [hne]
  | poll found => rw [subscribers_poll]; exact h
  | shutdown => simpa [Hotplug.act, shutdown] using h

/-- A handler that stays subscribed is told each time that its device departs, and nothing else. -/
theorem mine_of_calls {w : Hotplug Handler} {seen : List DeviceInfo} (h : w.Sole mine sub)
    (hw : w.Watches seen) (hrun : w.running = true) {actions : List (Action Handler)}
    (hspare : ∀ action ∈ actions, action.spares mine sub.id) :
    (w.calls actions).filter (fun told => mine told.1) =
      List.replicate (departures sub.deviceId seen actions)
        (sub.handler, ⟨sub.deviceId, .detached⟩) := by
  induction actions generalizing w seen with
  | nil => simp [calls, departures]
  | cons action rest ih =>
    obtain ⟨hfirst, hrest⟩ := List.forall_mem_cons.mp hspare
    have hsole := h.act hfirst
    have hwatch := hw.act hrun action
    unfold calls
    rw [List.filter_append]
    cases action with
    | poll found =>
      have hon : (w.act (.poll found)).2.running = true := by
        rw [running_act w (by simp), hrun]
      rw [ih hsole hwatch hon hrest]
      rcases found with e | devices
      · rw [act_poll_of_error]
        simp [departures, lastSeen]
      · have hnodup : (w.gone (identifiers devices)).Nodup := hw.nodup.filter _
        rw [act_poll w devices hrun, mine_of_list h hnodup]
        simp only [mem_gone, hw.present, departures, lastSeen, List.foldl_cons, List.foldl_nil]
        split
        · rw [Nat.add_comm, List.replicate_succ, List.singleton_append]
        · rw [Nat.zero_add, List.nil_append]
    | shutdown =>
      rw [(calls_of_stopped (by simp [Hotplug.act, shutdown]) rest).1]
      simp [Hotplug.act, departures]
    | subscribe d handler =>
      rw [ih hsole hwatch (by rw [running_act w (by simp), hrun]) hrest]
      simp [Hotplug.act, departures, lastSeen]
    | unsubscribe id =>
      rw [ih hsole hwatch (by rw [running_act w (by simp), hrun]) hrest]
      simp [Hotplug.act, departures, lastSeen]

/-- Nobody who is picked out is subscribed. -/
def Unheard (w : Hotplug Handler) (mine : Handler → Bool) : Prop :=
  ∀ s ∈ w.subscribers.live, mine s.handler = false

theorem Unheard.tellings {w : Hotplug Handler} (h : w.Unheard mine) (ids : List String) :
    (ids.flatMap w.tellings).filter (fun told => mine told.1) = [] := by
  rw [List.filter_eq_nil_iff]
  intro told htold
  obtain ⟨d, _, hd⟩ := List.mem_flatMap.mp htold
  unfold Hotplug.tellings Subscribers.handlersFor at hd
  simp only [List.mem_map, List.mem_filter] at hd
  obtain ⟨handler, ⟨s, ⟨hs, _⟩, rfl⟩, rfl⟩ := hd
  simp [h s hs]

theorem Unheard.act {w : Hotplug Handler} (h : w.Unheard mine) {action : Action Handler}
    (ha : ∀ deviceId handler, action = .subscribe deviceId handler → mine handler = false) :
    ((w.act action).1.filter fun told => mine told.1) = [] ∧ (w.act action).2.Unheard mine := by
  unfold Unheard at h ⊢
  cases action with
  | subscribe d handler =>
    have hnot := ha d handler rfl
    simp only [Hotplug.act, Hotplug.subscribe, Subscribers.live_insert, List.filter_nil, true_and]
    intro s hs
    rcases List.mem_append.mp hs with hs | hs
    · exact h s hs
    · rw [List.mem_singleton.mp hs]
      exact hnot
  | unsubscribe id =>
    simp only [Hotplug.act, Hotplug.unsubscribe, Subscribers.live_remove, List.filter_nil, true_and]
    exact fun s hs => h s (List.mem_filter.mp hs).1
  | poll found =>
    rw [subscribers_poll]
    refine ⟨?_, h⟩
    cases hrun : w.running with
    | false => simp [act_poll_of_stopped w found hrun]
    | true =>
      rcases found with e | devices
      · simp [act_poll_of_error]
      · rw [act_poll w devices hrun]
        exact Unheard.tellings h _
  | shutdown => exact ⟨by simp [Hotplug.act], h⟩

/-- Who is not subscribed yet is told nothing. -/
theorem Unheard.calls {w : Hotplug Handler} (h : w.Unheard mine) {actions : List (Action Handler)}
    (hothers : ∀ deviceId handler, .subscribe deviceId handler ∈ actions → mine handler = false) :
    (w.calls actions).filter (fun told => mine told.1) = [] ∧ (w.after actions).Unheard mine := by
  induction actions generalizing w with
  | nil => exact ⟨by simp [Hotplug.calls], h⟩
  | cons action rest ih =>
    have hfirst := h.act fun d handler he => hothers d handler (he ▸ List.mem_cons_self ..)
    have hrest := ih hfirst.2 fun d handler he => hothers d handler (List.mem_cons_of_mem _ he)
    rw [after_cons]
    unfold Hotplug.calls
    rw [List.filter_append, hfirst.1, hrest.1]
    exact ⟨by simp, hrest.2⟩

/-! ## The law -/

/-- The action makes a subscription. -/
def Action.subscribes : Action Handler → Bool
  | .subscribe .. => true
  | _ => false

theorem lastId_after (w : Hotplug Handler) (actions : List (Action Handler)) :
    (w.after actions).subscribers.lastId =
      w.subscribers.lastId + actions.countP Action.subscribes := by
  induction actions generalizing w with
  | nil => simp [after]
  | cons action rest ih =>
    rw [after_cons, ih, List.countP_cons]
    cases action with
    | subscribe d handler =>
      simp only [act, Hotplug.subscribe, Subscribers.insert, Action.subscribes, if_true]
      omega
    | unsubscribe id =>
      simp [act, Hotplug.unsubscribe, Subscribers.lastId_remove, Action.subscribes]
    | poll found =>
      rw [subscribers_poll]
      simp [Action.subscribes]
    | shutdown => simp [act, shutdown, Action.subscribes]

/-- Enumerations that fail tell nobody anything, then or later. -/
theorem calls_filter (w : Hotplug Handler) (actions : List (Action Handler)) :
    w.calls (actions.filter fun action => !action.fails) = w.calls actions := by
  induction actions generalizing w with
  | nil => simp
  | cons action rest ih =>
    by_cases hf : action.fails = true
    · obtain ⟨e, rfl⟩ : ∃ e, action = .poll (.error e) := by
        unfold Action.fails at hf
        split at hf
        · exact ⟨_, rfl⟩
        · cases hf
      rw [List.filter_cons_of_neg (by simp [hf]), ih, calls, act_poll_of_error, List.nil_append]
    · rw [List.filter_cons_of_pos (by simp [hf]), calls, calls, ih]

/-- The handlers that are told something of this device. -/
def toldOf (deviceId : String) (calls : List (Told Handler)) : Multiset Handler :=
  ((calls.filter fun told => told.2.deviceId = deviceId).map (·.1) : List Handler)

theorem toldOf_tellings (w : Hotplug Handler) {ids : List String} (hnodup : ids.Nodup)
    (deviceId : String) :
    toldOf deviceId (ids.flatMap w.tellings) =
      if deviceId ∈ ids then (w.subscribers.handlersFor deviceId : Multiset Handler) else 0 := by
  unfold toldOf
  rw [told_of_device w hnodup]
  split
  · simp [tellings, Function.comp_def]
  · simp

/-- What is told of a device at a poll. -/
theorem toldOf_poll {w : Hotplug Handler} {first : List DeviceInfo} (hw : w.Watches first)
    (hrun : w.running = true) (hnew : w.subscribers = {}) (before : List (Action Handler))
    (found : Except PortError (List DeviceInfo)) (deviceId : String) :
    (Disappears first before found deviceId →
      toldOf deviceId ((w.after before).act (.poll found)).1 =
        (standing 0 deviceId before : Multiset Handler)) ∧
    (¬ Disappears first before found deviceId →
      toldOf deviceId ((w.after before).act (.poll found)).1 = 0) := by
  have hsubscribed : (w.after before).subscribers.handlersFor deviceId =
      standing 0 deviceId before := by
    rw [handlersFor_after, hnew]
    simp
  by_cases hoff : Action.shutdown ∈ before
  · rw [act_poll_of_stopped _ found (running_of_shutdown hoff)]
    refine ⟨fun h => absurd hoff h.running, fun _ => ?_⟩
    simp [toldOf]
  · obtain ⟨hon, hwatch⟩ := hw.after hrun hoff
    rcases found with e | devices
    · rw [act_poll_of_error]
      refine ⟨fun h => ?_, fun _ => by simp [toldOf]⟩
      obtain ⟨devices, he, _⟩ := h.gone
      cases he
    · have hnodup : ((w.after before).gone (identifiers devices)).Nodup := hwatch.nodup.filter _
      rw [act_poll _ devices hon, toldOf_tellings _ hnodup, hsubscribed]
      simp only [mem_gone, hwatch.present]
      constructor
      · rintro ⟨_, hwas, devices', he, hgone⟩
        cases he
        rw [if_pos ⟨hwas, hgone⟩]
      · intro h
        rw [if_neg]
        rintro ⟨hwas, hgone⟩
        exact h ⟨hoff, hwas, devices, rfl, hgone⟩

/-- Nothing but that devices were detached is told. -/
theorem detached_of_calls (w : Hotplug Handler) (actions : List (Action Handler)) :
    ∀ told ∈ w.calls actions, told.2.kind = .detached := by
  induction actions generalizing w with
  | nil => simp [calls]
  | cons action rest ih =>
    unfold calls
    intro told htold
    rcases List.mem_append.mp htold with htold | htold
    · cases action with
      | poll found =>
        cases hrun : w.running with
        | false => simp [act_poll_of_stopped w found hrun] at htold
        | true =>
          rcases found with e | devices
          · simp [act_poll_of_error] at htold
          · rw [act_poll w devices hrun] at htold
            obtain ⟨d, _, hd⟩ := List.mem_flatMap.mp htold
            obtain ⟨handler, _, rfl⟩ := List.mem_map.mp hd
            simp
      | subscribe | unsubscribe | shutdown => simp [act] at htold
    · exact ih _ told htold

/-- What a watcher `w`, whose first enumeration was `first`, tells in the course of some actions. -/
structure TellsDepartures (w : Hotplug Handler) (first : List DeviceInfo)
    (actions : List (Action Handler)) : Prop where
  /-- At a poll the handlers that are subscribed to a device are told once each, if it disappears;
  of any other device nobody is told. -/
  told : ∀ before found rest, actions = before ++ .poll found :: rest → ∀ deviceId,
    (Disappears first before found deviceId →
      toldOf deviceId ((w.after before).act (.poll found)).1 =
        (standing 0 deviceId before : Multiset Handler)) ∧
    (¬ Disappears first before found deviceId →
      toldOf deviceId ((w.after before).act (.poll found)).1 = 0)
  detached : ∀ told ∈ w.calls actions, told.2.kind = .detached
  /-- A handler that stays subscribed is told of each departure of its device since. `mine` picks it
  out among all handlers that ever subscribe. -/
  each : ∀ (mine : Handler → Bool) before deviceId handler rest,
    actions = before ++ .subscribe deviceId handler :: rest → Action.shutdown ∉ before →
    mine handler = true →
    (∀ d other, .subscribe d other ∈ before ++ rest → mine other = false) →
    Action.unsubscribe (before.countP Action.subscribes + 1) ∉ rest →
    (w.calls actions).filter (fun told => mine told.1) =
      List.replicate (departures deviceId (lastSeen first before) rest)
        (handler, ⟨deviceId, .detached⟩)
  failed : w.calls (actions.filter fun action => !action.fails) = w.calls actions
  silent : ∀ before rest, actions = before ++ .shutdown :: rest →
    (w.after before).calls (.shutdown :: rest) = []

theorem calls_since_subscribed {w : Hotplug Handler} {first : List DeviceInfo}
    (hw : w.Watches first) (hrun : w.running = true) (hnew : w.subscribers = {})
    {before rest : List (Action Handler)} {deviceId : String} {handler : Handler}
    (hon : Action.shutdown ∉ before) (hmine : mine handler = true)
    (hothers : ∀ d other, .subscribe d other ∈ before ++ rest → mine other = false)
    (hstays : Action.unsubscribe (before.countP Action.subscribes + 1) ∉ rest) :
    (w.calls (before ++ .subscribe deviceId handler :: rest)).filter (fun told => mine told.1) =
      List.replicate (departures deviceId (lastSeen first before) rest)
        (handler, ⟨deviceId, .detached⟩) := by
  have hnone : w.Unheard mine := by
    unfold Unheard
    simp [hnew]
  obtain ⟨hquiet, hnone⟩ := hnone.calls fun d other h => hothers d other (List.mem_append_left _ h)
  obtain ⟨hon', hwatch⟩ := hw.after hrun hon
  have hid : (w.after before).subscribers.lastId = before.countP Action.subscribes := by
    rw [lastId_after, hnew]
    simp
  have hsole : ((w.after before).act (.subscribe deviceId handler)).2.Sole mine
      ⟨before.countP Action.subscribes + 1, deviceId, handler⟩ := by
    have hlive : (w.after before).subscribers.live.filter (fun s => mine s.handler) = [] := by
      rw [List.filter_eq_nil_iff]
      intro s hs
      simp [hnone s hs]
    unfold Sole
    simp [act, Hotplug.subscribe, Subscribers.live_insert, hlive, hmine, hid]
  have hspare : ∀ action ∈ rest, action.spares mine (before.countP Action.subscribes + 1) := by
    intro action haction
    cases action with
    | subscribe d other => exact hothers d other (List.mem_append_right _ haction)
    | unsubscribe id =>
      rintro rfl
      exact hstays haction
    | poll | shutdown => trivial
  rw [calls_append, List.filter_append, hquiet, List.nil_append, calls, List.filter_append,
    mine_of_calls hsole (hwatch.act hon' _) (by rw [running_act _ (by simp), hon']) hspare]
  simp [act, lastSeen]

/-- A watcher tells of each disappearance of a device, once, those who are subscribed to it by then,
whatever its enumerations find and whenever subscriptions are made and ended. -/
theorem a_watcher_tells_of_each_disappearance_once (first : List DeviceInfo)
    (actions : List (Action Handler)) :
    ∃ w, start (.ok (identifiers first)) = .ok w ∧ TellsDepartures w first actions := by
  refine ⟨{ present := (identifiers first).eraseDups }, rfl, ?_⟩
  have hw : ({ present := (identifiers first).eraseDups } : Hotplug Handler).Watches first :=
    watches_of_eraseDups rfl
  constructor
  · intro before found rest _ deviceId
    exact toldOf_poll hw rfl rfl before found deviceId
  · exact detached_of_calls _ actions
  · rintro mine before deviceId handler rest rfl hon hmine hothers hstays
    exact calls_since_subscribed hw rfl rfl hon hmine hothers hstays
  · exact calls_filter _ actions
  · intro before rest _
    unfold calls
    rw [(calls_of_stopped (by simp [act, shutdown]) rest).1]
    simp [act]

end Hotplug

end SerialLink
