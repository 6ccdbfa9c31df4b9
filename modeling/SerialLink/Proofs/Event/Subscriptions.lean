-- The books of subscriptions. Numbers are given out one after the other, and
-- each is taken back once at most. What is live at any time is what was
-- subscribed by then and not unsubscribed since.
import Mathlib.Data.List.Induction
import Mathlib.Data.Multiset.Filter
import SerialLink.Event.Subscribers

namespace SerialLink.Subscribers

variable {Handler : Type}

/-! ## The books -/

/-- What is asked of the list. -/
inductive Op (Handler : Type)
  | subscribe (deviceId : String) (handler : Handler)
  | unsubscribe (id : Nat)

def Op.isSubscribe : Op Handler → Bool
  | .subscribe .. => true
  | .unsubscribe _ => false

/-- What was asked, and what came of it. -/
inductive Entry (Handler : Type)
  /-- A subscription was made, and this number was given out. -/
  | subscribed (deviceId : String) (handler : Handler) (id : Nat)
  | unsubscribed (id : Nat) (result : Except PortError Unit)

namespace Entry

/-- The subscription that was made. -/
def made? : Entry Handler → Option (Subscription Handler)
  | .subscribed deviceId handler id => some { id, deviceId, handler }
  | .unsubscribed .. => none

/-- The number that was taken back. -/
def revoked? : Entry Handler → Option Nat
  | .unsubscribed id (.ok ()) => some id
  | _ => none

end Entry

/-- One operation: its entry, and the list behind it. -/
def perform (s : Subscribers Handler) : Op Handler → Entry Handler × Subscribers Handler
  | .subscribe deviceId handler =>
    let (id, s) := s.insert deviceId handler
    (.subscribed deviceId handler id, s)
  | .unsubscribe id =>
    let (result, s) := s.remove id
    (.unsubscribed id result, s)

/-- The list that comes of these operations. -/
def of (ops : List (Op Handler)) : Subscribers Handler :=
  ops.foldl (fun s op => (s.perform op).2) {}

/-- The entries of some operations, oldest first. -/
def entriesFrom : Subscribers Handler → List (Op Handler) → List (Entry Handler)
  | _, [] => []
  | s, op :: ops => (s.perform op).1 :: entriesFrom (s.perform op).2 ops

/-- The entries of a list since it was empty. -/
def entries (ops : List (Op Handler)) : List (Entry Handler) := entriesFrom {} ops

/-- The subscriptions that were made. -/
def made (ops : List (Op Handler)) : List (Subscription Handler) :=
  (entries ops).filterMap Entry.made?

/-- The numbers that were given out. -/
def issued (ops : List (Op Handler)) : List Nat := (made ops).map (·.id)

/-- The numbers that were taken back. -/
def revoked (ops : List (Op Handler)) : List Nat := (entries ops).filterMap Entry.revoked?

/-- The subscriptions that were made and not ended. -/
def standing (ops : List (Op Handler)) : List (Subscription Handler) :=
  (made ops).filter fun sub => !(revoked ops).contains sub.id

/-- The handlers of the subscriptions for a device that were made and not ended. -/
def subscribedTo (deviceId : String) (ops : List (Op Handler)) : Multiset Handler :=
  (((standing ops).filter fun sub => sub.deviceId = deviceId).map (·.handler) : List Handler)

section Books

variable (ops : List (Op Handler)) (op : Op Handler)

theorem of_snoc : of (ops ++ [op]) = ((of ops).perform op).2 := by
  unfold of
  rw [List.foldl_append]
  rfl

theorem entries_snoc : entries (ops ++ [op]) = entries ops ++ [((of ops).perform op).1] := by
  have happend : ∀ s : Subscribers Handler, entriesFrom s (ops ++ [op]) =
      entriesFrom s ops ++ [((ops.foldl (fun s op => (s.perform op).2) s).perform op).1] := by
    induction ops with
    | nil => exact fun s => rfl
    | cons first rest ih =>
      intro s
      rw [List.cons_append, entriesFrom, ih, entriesFrom]
      rfl
  exact happend {}

theorem made_snoc :
    made (ops ++ [op]) = made ops ++ ((of ops).perform op).1.made?.toList := by
  unfold made
  rw [entries_snoc, List.filterMap_append]
  cases ((of ops).perform op).1 <;> rfl

theorem revoked_snoc :
    revoked (ops ++ [op]) = revoked ops ++ ((of ops).perform op).1.revoked?.toList := by
  unfold revoked
  rw [entries_snoc, List.filterMap_append, List.filterMap_cons]
  cases ((of ops).perform op).1.revoked? <;> rfl

theorem mem_standing {id : Nat} :
    id ∈ (standing ops).map (·.id) ↔ id ∈ issued ops ∧ id ∉ revoked ops := by
  unfold standing issued
  simp only [List.mem_map, List.mem_filter, Bool.not_eq_true', List.contains_eq_mem,
    decide_eq_false_iff_not]
  constructor
  · rintro ⟨sub, ⟨hmade, hopen⟩, rfl⟩
    exact ⟨⟨sub, hmade, rfl⟩, hopen⟩
  · rintro ⟨⟨sub, hmade, rfl⟩, hopen⟩
    exact ⟨sub, ⟨hmade, hopen⟩, rfl⟩

/-- Where one number more was taken back, its subscription no longer stands. -/
theorem standing_of_revoked {ops ops' : List (Op Handler)} {id : Nat} (hmade : made ops' = made ops)
    (hrevoked : revoked ops' = revoked ops ++ [id]) :
    standing ops' = (standing ops).filter fun sub => sub.id != id := by
  unfold standing
  rw [hmade, hrevoked, List.filter_filter]
  refine List.filter_congr fun sub _ => ?_
  rw [List.contains_append, Bool.not_or, Bool.and_comm, List.contains_cons, List.contains_nil,
    Bool.or_false]
  rfl

end Books

/-! ## One operation -/

theorem live_insert (s : Subscribers Handler) (deviceId : String) (handler : Handler) :
    (s.insert deviceId handler).2.live = s.live ++ [⟨s.lastId + 1, deviceId, handler⟩] := by
  simp [insert]

/-- Where there is no such subscription, there is nothing to filter out. -/
theorem live_remove (s : Subscribers Handler) (id : Nat) :
    (s.remove id).2.live = s.live.filter fun sub => sub.id != id := by
  unfold remove
  split
  · simp
  · rename_i hnone
    symm
    rw [List.filter_eq_self]
    simpa using hnone

theorem lastId_remove (s : Subscribers Handler) (id : Nat) : (s.remove id).2.lastId = s.lastId := by
  unfold remove
  split <;> simp

/-- A number is taken back just if it is live; where it is not, nothing changes. -/
theorem remove_cases (s : Subscribers Handler) (id : Nat) :
    (id ∈ s.live.map (·.id) ∧ (s.remove id).1 = .ok ()) ∨
      (id ∉ s.live.map (·.id) ∧
        s.remove id = (.error (.subscription s!"unknown subscription {id}"), s)) := by
  have hany : (s.live.any fun sub => sub.id == id) = true ↔ id ∈ s.live.map (·.id) := by
    simp
  unfold remove
  split
  · rename_i hlive
    exact Or.inl ⟨hany.mp hlive, rfl⟩
  · rename_i hnone
    exact Or.inr ⟨fun hmem => hnone (hany.mpr hmem), rfl⟩

/-! ## What every operation keeps -/

/-- The list that comes of some operations and the books of them agree. -/
structure Agrees (ops : List (Op Handler)) : Prop where
  issued : issued ops = List.range' 1 (of ops).lastId
  lastId : (of ops).lastId = ops.countP Op.isSubscribe
  live : (of ops).live = standing ops
  revoked : (revoked ops).Nodup
  known : ∀ id ∈ Subscribers.revoked ops, id ∈ Subscribers.issued ops

section Agrees

variable {ops : List (Op Handler)}

/-- The next number was not taken back: it was not even given out. -/
theorem Agrees.new (h : Agrees ops) : (of ops).lastId + 1 ∉ Subscribers.revoked ops := by
  intro hmem
  have hold := h.known _ hmem
  rw [h.issued, List.mem_range'_1] at hold
  omega

theorem Agrees.subscribe (h : Agrees ops) (deviceId : String) (handler : Handler) :
    Agrees (ops ++ [.subscribe deviceId handler]) := by
  have hof : of (ops ++ [.subscribe deviceId handler]) =
      ((of ops).insert deviceId handler).2 := of_snoc ops _
  have hmade : made (ops ++ [.subscribe deviceId handler]) =
      made ops ++ [⟨(of ops).lastId + 1, deviceId, handler⟩] := made_snoc ops _
  have hrevoked : Subscribers.revoked (ops ++ [.subscribe deviceId handler]) =
      Subscribers.revoked ops := (revoked_snoc ops _).trans (List.append_nil _)
  have hissued : Subscribers.issued (ops ++ [.subscribe deviceId handler]) =
      Subscribers.issued ops ++ [(of ops).lastId + 1] := by
    unfold Subscribers.issued
    rw [hmade, List.map_append]
    rfl
  refine ⟨?_, ?_, ?_, ?_, ?_⟩
  · rw [hissued, h.issued, hof]
    change _ = List.range' 1 ((of ops).lastId + 1)
    rw [List.range'_1_concat, Nat.add_comm]
  · rw [hof, List.countP_append, ← h.lastId]
    rfl
  · rw [hof, live_insert, h.live]
    unfold standing
    rw [hmade, hrevoked, List.filter_append]
    simp [h.new]
  · rw [hrevoked]
    exact h.revoked
  · rw [hrevoked, hissued]
    exact fun id hid => List.mem_append_left _ (h.known id hid)

/-- An unsubscribe that takes nothing back leaves the books as they were, and one that takes a
number back takes a live one. -/
theorem Agrees.unsubscribe (h : Agrees ops) (id : Nat) : Agrees (ops ++ [.unsubscribe id]) := by
  have hof : of (ops ++ [.unsubscribe id]) = ((of ops).remove id).2 := of_snoc ops _
  have hmade : made (ops ++ [.unsubscribe id]) = made ops :=
    (made_snoc ops _).trans (List.append_nil _)
  have hrevoked : Subscribers.revoked (ops ++ [.unsubscribe id]) = Subscribers.revoked ops ++
      (Entry.unsubscribed id ((of ops).remove id).1 : Entry Handler).revoked?.toList :=
    revoked_snoc ops _
  have hissued : Subscribers.issued (ops ++ [.unsubscribe id]) = Subscribers.issued ops := by
    unfold Subscribers.issued
    rw [hmade]
  have hlastId : (of (ops ++ [.unsubscribe id])).lastId = (of ops).lastId := by
    rw [hof, lastId_remove]
  have hcount : (ops ++ [Op.unsubscribe id]).countP Op.isSubscribe = ops.countP Op.isSubscribe := by
    rw [List.countP_append]
    rfl
  have hissued' := hissued.trans (h.issued.trans (congrArg (List.range' 1) hlastId.symm))
  have hlastId' := hlastId.trans (h.lastId.trans hcount.symm)
  rcases remove_cases (of ops) id with ⟨hlive, hok⟩ | ⟨_, herr⟩
  · rw [h.live] at hlive
    obtain ⟨hgiven, hopen⟩ := (mem_standing ops).mp hlive
    rw [hok] at hrevoked
    change _ = _ ++ [id] at hrevoked
    refine ⟨hissued', hlastId', ?_, ?_, ?_⟩
    · rw [hof, live_remove, h.live, standing_of_revoked hmade hrevoked]
    · rw [hrevoked]
      exact List.nodup_append.mpr ⟨h.revoked, List.nodup_singleton id,
        fun a ha b hb hab => hopen (List.mem_singleton.mp hb ▸ hab ▸ ha)⟩
    · rw [hrevoked, hissued]
      intro a ha
      rcases List.mem_append.mp ha with ha | ha
      · exact h.known a ha
      · exact List.mem_singleton.mp ha ▸ hgiven
  · rw [herr] at hrevoked hof
    replace hrevoked := hrevoked.trans (List.append_nil _)
    refine ⟨hissued', hlastId', ?_, hrevoked ▸ h.revoked, ?_⟩
    · rw [hof, h.live]
      unfold standing
      rw [hmade, hrevoked]
    · rw [hrevoked, hissued]
      exact h.known

theorem agrees_of_ops (ops : List (Op Handler)) : Agrees ops := by
  induction ops using List.reverseRecOn with
  | nil => exact ⟨rfl, rfl, rfl, List.nodup_nil, nofun⟩
  | append_singleton ops op ih =>
    cases op with
    | subscribe deviceId handler => exact ih.subscribe deviceId handler
    | unsubscribe id => exact ih.unsubscribe id

end Agrees

/-! ## The law -/

/-- The books of a list that comes of these operations. -/
structure Booked (ops : List (Op Handler)) : Prop where
  /-- The numbers are 1, 2, 3 and so on, one for each subscribe, so none is past 64 bits while the
  subscribes are not that many. -/
  numbers : issued ops = List.range' 1 (ops.countP Op.isSubscribe)
  distinct : (issued ops).Nodup
  /-- What can be ended was given out and was not ended before. -/
  ends : ∀ id, ((of ops).remove id).1 = .ok () ↔ id ∈ issued ops ∧ id ∉ revoked ops
  fails : ∀ id, ((of ops).remove id).1 ≠ .ok () →
    (of ops).remove id = (.error (.subscription s!"unknown subscription {id}"), of ops)
  once : (revoked ops).Nodup
  size : (of ops).size = (standing ops).length
  handlers : ∀ deviceId, ((of ops).handlersFor deviceId : Multiset Handler) =
    subscribedTo deviceId ops

theorem handlersFor_of (ops : List (Op Handler)) (deviceId : String) :
    ((of ops).handlersFor deviceId : Multiset Handler) = subscribedTo deviceId ops := by
  unfold handlersFor subscribedTo
  rw [(agrees_of_ops ops).live]
  simp only [beq_eq_decide]

theorem booked (ops : List (Op Handler)) : Booked ops := by
  have h := agrees_of_ops ops
  have hlive : ∀ id, id ∈ (of ops).live.map (·.id) ↔ id ∈ issued ops ∧ id ∉ revoked ops := by
    intro id
    rw [h.live]
    exact mem_standing ops
  refine ⟨h.lastId ▸ h.issued, ?_, ?_, ?_, h.revoked, congrArg List.length h.live,
    handlersFor_of ops⟩
  · rw [h.issued]
    exact List.nodup_range'
  · intro id
    rw [← hlive id]
    rcases remove_cases (of ops) id with ⟨hmem, hok⟩ | ⟨hnot, herr⟩
    · exact ⟨fun _ => hmem, fun _ => hok⟩
    · rw [herr]
      exact ⟨nofun, fun hmem => absurd hmem hnot⟩
  · intro id hfail
    rcases remove_cases (of ops) id with ⟨_, hok⟩ | ⟨_, herr⟩
    · exact absurd hok hfail
    · exact herr

end SerialLink.Subscribers
