-- Whom an emit calls. It notes down the handlers of the event's device before
-- it calls the first of them, so it calls just these, once each, whatever they
-- do in the meantime: they may subscribe, unsubscribe and emit again.
import SerialLink.Proofs.Event.Subscriptions

namespace SerialLink

variable {Handler : Type}

/-- Handlers that are called one after the other, where each answers who it is. -/
theorem callEach_named {State : Type} (call : Handler → State → State) (handlers : List Handler)
    (state : State) :
    callEach (fun handler state => (handler, call handler state)) handlers state =
      (handlers, handlers.foldl (fun state handler => call handler state) state) := by
  induction handlers generalizing state with
  | nil => rfl
  | cons handler rest ih =>
    unfold callEach
    dsimp only
    rw [ih]
    rfl

namespace EventSource

open Subscribers (Op Booked subscribedTo)

/-! ## Emits on their way -/

/-- An emit on its way. -/
structure Emission (Handler : Type) where
  event : DeviceEvent
  /-- How many operations were asked of the source before it began. -/
  since : Nat
  called : List Handler := []
  /-- The handlers that it has yet to call. -/
  left : List Handler

/-- Calls one of the handlers that are left. -/
def Emission.call (e : Emission Handler) (which : Nat) : Emission Handler :=
  match e.left[which]? with
  | none => e
  | some handler => { e with called := e.called ++ [handler], left := e.left.eraseIdx which }

/-- What happens next, be it inside a handler that was called or on a thread of its own. -/
inductive Move (Handler : Type)
  | subscribe (deviceId : String) (handler : Handler)
  | unsubscribe (id : Nat)
  | emit (event : DeviceEvent)
  /-- The emit with this number goes on to one of the handlers that are left. -/
  | call (emission which : Nat)

/-- A source, what was asked of it, and the emits so far, oldest first. -/
structure History (Handler : Type) where
  source : EventSource Handler := {}
  ops : List (Op Handler) := []
  emissions : List (Emission Handler) := []

namespace History

/-- An emit that has called nobody yet. -/
def begun (h : History Handler) (event : DeviceEvent) : Emission Handler :=
  { event
    since := h.ops.length
    left := (h.source.emit event fun handler source => (handler, source)).1 }

def extend (h : History Handler) : Move Handler → History Handler
  | .subscribe deviceId handler =>
    { h with
      source := (h.source.subscribe deviceId handler).2
      ops := h.ops ++ [.subscribe deviceId handler] }
  | .unsubscribe id =>
    { h with source := (h.source.unsubscribe id).2, ops := h.ops ++ [.unsubscribe id] }
  | .emit event => { h with emissions := h.emissions ++ [h.begun event] }
  | .call n which => { h with emissions := h.emissions.modify n fun e => e.call which }

def after (h : History Handler) (moves : List (Move Handler)) : History Handler :=
  moves.foldl extend h

/-- The handlers that were subscribed to the event's device when the emit began. -/
def audience (h : History Handler) (e : Emission Handler) : Multiset Handler :=
  subscribedTo e.event.deviceId (h.ops.take e.since)

end History

/-! ## What every move keeps -/

/-- Those who are called and those who are left stay the same together. -/
theorem Emission.call_keeps (e : Emission Handler) (which : Nat) :
    (e.call which).event = e.event ∧ (e.call which).since = e.since ∧
      ((e.call which).called ++ (e.call which).left).Perm (e.called ++ e.left) := by
  unfold Emission.call
  rcases hleft : e.left[which]? with _ | handler
  · exact ⟨rfl, rfl, .refl _⟩
  · obtain ⟨hlt, rfl⟩ := List.getElem?_eq_some_iff.mp hleft
    refine ⟨rfl, rfl, ?_⟩
    rw [List.append_assoc]
    exact (List.getElem_cons_eraseIdx_perm hlt).append_left e.called

/-- What is known of a history at any time. -/
structure Sound (h : History Handler) : Prop where
  source : h.source.subscribers = Subscribers.of h.ops
  since : ∀ e ∈ h.emissions, e.since ≤ h.ops.length
  told : ∀ e ∈ h.emissions, ((e.called ++ e.left : List Handler) : Multiset Handler) = h.audience e

section Sound

variable {h : History Handler}

/-- More operations change nothing about an emit that has begun. -/
theorem Sound.asked (hs : Sound h) {source : EventSource Handler} {op : Op Handler}
    (hsource : source.subscribers = Subscribers.of (h.ops ++ [op])) :
    Sound { h with source, ops := h.ops ++ [op] } := by
  refine ⟨hsource, fun e he => ?_, fun e he => ?_⟩
  · have := hs.since e he
    rw [List.length_append]
    omega
  · unfold History.audience
    dsimp only
    rw [List.take_append_of_le_length (hs.since e he)]
    exact hs.told e he

theorem Sound.begun (hs : Sound h) (event : DeviceEvent) :
    ((h.begun event).called ++ (h.begun event).left : List Handler) =
      h.audience (h.begun event) := by
  have hleft : (h.begun event).left = (Subscribers.of h.ops).handlersFor event.deviceId := by
    rw [← hs.source]
    exact congrArg Prod.fst (callEach_named (fun _ source => source) _ _)
  have hsince : h.ops.take (h.begun event).since = h.ops := List.take_length
  unfold History.audience
  rw [hsince, hleft]
  exact Subscribers.handlersFor_of h.ops event.deviceId

theorem Sound.extend (hs : Sound h) (move : Move Handler) : Sound (h.extend move) := by
  cases move with
  | subscribe deviceId handler =>
    apply hs.asked
    rw [Subscribers.of_snoc, ← hs.source]
    rfl
  | unsubscribe id =>
    apply hs.asked
    rw [Subscribers.of_snoc, ← hs.source]
    rfl
  | emit event =>
    refine ⟨hs.source, fun e he => ?_, fun e he => ?_⟩
    all_goals rcases List.mem_append.mp he with he | he
    · exact hs.since e he
    · exact List.mem_singleton.mp he ▸ Nat.le_refl _
    · exact hs.told e he
    · exact List.mem_singleton.mp he ▸ hs.begun event
  | call n which =>
    have hmem : ∀ e ∈ (h.extend (.call n which)).emissions,
        e ∈ h.emissions ∨ ∃ e' ∈ h.emissions, e = e'.call which := by
      intro e he
      obtain ⟨k, hk⟩ := List.mem_iff_getElem?.mp he
      unfold History.extend at hk
      rw [List.getElem?_modify] at hk
      obtain ⟨e', he', rfl⟩ := Option.map_eq_some_iff.mp hk
      split
      · exact Or.inr ⟨e', List.mem_of_getElem? he', rfl⟩
      · exact Or.inl (List.mem_of_getElem? he')
    refine ⟨hs.source, fun e he => ?_, fun e he => ?_⟩
    all_goals rcases hmem e he with he | ⟨e', he', rfl⟩
    · exact hs.since e he
    · exact (e'.call_keeps which).2.1 ▸ hs.since e' he'
    · exact hs.told e he
    · obtain ⟨hevent, hsince, hperm⟩ := e'.call_keeps which
      unfold History.audience
      rw [hevent, hsince, Multiset.coe_eq_coe.mpr hperm]
      exact hs.told e' he'

theorem Sound.after (hs : Sound h) (moves : List (Move Handler)) : Sound (h.after moves) := by
  induction moves generalizing h with
  | nil => exact hs
  | cons move moves ih => exact ih (hs.extend move)

theorem sound_of_moves (moves : List (Move Handler)) : Sound (History.after {} moves) :=
  Sound.after ⟨rfl, fun _ he => (List.not_mem_nil he).elim,
    fun _ he => (List.not_mem_nil he).elim⟩ moves

end Sound

/-! ## The law -/

/-- An emit comes to its end by a call for each of the handlers that are left. -/
theorem emissions_called {h : History Handler} {n : Nat} {event : DeviceEvent} {since : Nat}
    {called left : List Handler} (he : h.emissions[n]? = some { event, since, called, left }) :
    (h.after (List.replicate left.length (.call n 0))).emissions[n]? =
      some { event, since, called := called ++ left, left := [] } := by
  induction left generalizing h called with
  | nil =>
    rw [List.append_nil]
    exact he
  | cons handler rest ih =>
    have hcall : (h.extend (.call n 0)).emissions[n]? =
        some { event, since, called := called ++ [handler], left := rest } := by
      unfold History.extend
      dsimp only
      rw [List.getElem?_modify_eq, he]
      rfl
    have hrest := ih hcall
    rw [List.append_assoc] at hrest
    exact hrest

/-- What the emits of a history have to do with the subscriptions. -/
structure Tells (h : History Handler) : Prop where
  source : h.source.subscribers = Subscribers.of h.ops
  /-- Those whom an emit has called, and those whom it has yet to call, are its audience, each of
  them as often as it was subscribed, whatever came in between. -/
  told : ∀ e ∈ h.emissions, (e.called : Multiset Handler) + e.left = h.audience e
  /-- From wherever it stands it comes to its end, and then it has called its audience. -/
  ends : ∀ n e, h.emissions[n]? = some e →
    ∃ e', (h.after (List.replicate e.left.length (.call n 0))).emissions[n]? = some e' ∧
      e'.left = [] ∧ (e'.called : Multiset Handler) = h.audience e
  /-- An emit in one go, its handlers doing to the source what they like. -/
  emit : ∀ (event : DeviceEvent) (call : Handler → EventSource Handler → EventSource Handler),
    let (called, source) := h.source.emit event fun handler source => (handler, call handler source)
    (called : Multiset Handler) = subscribedTo event.deviceId h.ops ∧
      source = called.foldl (fun source handler => call handler source) h.source

theorem tells_of_sound {h : History Handler} (hs : Sound h) : Tells h := by
  refine ⟨hs.source, fun e he => ?_, fun n e he => ?_, fun event call => ?_⟩
  · rw [Multiset.coe_add]
    exact hs.told e he
  · exact ⟨_, emissions_called he, rfl, hs.told e (List.mem_of_getElem? he)⟩
  · unfold EventSource.emit
    rw [callEach_named, hs.source]
    exact ⟨Subscribers.handlersFor_of h.ops event.deviceId, rfl⟩

/-- Every subscription is in the books of its list, from its number to its end, and every emit calls
the handlers that are subscribed when it begins, once each, whatever they do to the source and
however emits run into one another. -/
theorem subscriptions_are_booked_and_told (ops : List (Op Handler)) (moves : List (Move Handler)) :
    Booked ops ∧ Tells (History.after {} moves) :=
  ⟨Subscribers.booked ops, tells_of_sound (sound_of_moves moves)⟩

/-- The first handler ends the second subscription, makes a third and emits again: the emit on its
way calls the second handler still and the third not, the new one the other way round. -/
example :
    let event : DeviceEvent := ⟨"A", .detached⟩
    let moves : List (Move Nat) := [.subscribe "A" 7, .subscribe "A" 8, .subscribe "B" 9,
      .emit event, .call 0 0, .unsubscribe 2, .subscribe "A" 6, .emit event, .call 1 0, .call 1 0,
      .call 0 0]
    (History.after {} moves).emissions.map (·.called) = [[7, 8], [7, 6]] := by
  decide +kernel

end EventSource

end SerialLink
