-- What happens to one attempt, moment by moment: the changes of the session
-- that are told, the callbacks, the checks of its drain, the batches that the
-- drain gives to the consumer and its end. `Allowed` says what may come behind
-- what, and from that it follows which callback may overtake which.
import SerialLink.Proofs.Connection.Callbacks

namespace SerialLink.Connection

/-! ## Moments of an attempt -/

/-- What happens to an attempt. A callback goes by the state that it tells of. -/
inductive Moment
  /-- The session changes, and one callback will tell of it. -/
  | changed (s : ConnectionState)
  /-- The attempt has begun without access, and waits for its grant. -/
  | waits
  | told (s : ConnectionState)
  /-- This drain finds that it still may go on, and will give its batch. -/
  | checked (drain : Nat)
  /-- The consumer is given a batch by this drain. -/
  | given (drain : Nat)
  /-- This drain may go on no further. -/
  | stopped (drain : Nat)
  deriving DecidableEq

/-- The attempt that a drain was made for. -/
def drainAttempt (c : Connection) (drain : Nat) : Option Nat := c.drains[drain]?.map (·.attempt)

/-- The callback of attempt `n` that an effect is. -/
def momentOf (c : Connection) (n : Nat) : Effect → Option Moment
  | .notified m notice => if m = n then some (.told notice.state) else none
  | .delivered drain _ => if c.drainAttempt drain = some n then some (.given drain) else none
  | _ => none

namespace Entry

/-- The drain of attempt `n` whose last check a step is, if it may go on. -/
def checks (e : Entry) (n : Nat) : List Nat :=
  match e.task with
  | .deliver drain _ =>
    if e.before.drainAttempt drain = some n ∧ e.before.drainRuns drain = true then [drain] else []
  | _ => []

/-- What a step shows of attempt `n`: a check, a callback or a batch. -/
def shows (e : Entry) (n : Nat) : List Moment :=
  (e.checks n).map .checked ++ e.effects.filterMap (momentOf e.before n)

/-- The drains of attempt `n` that a step stops. -/
def stops (e : Entry) (n : Nat) : List Nat :=
  (List.range e.before.drains.length).filter fun d =>
    e.before.drainAttempt d = some n ∧ e.before.drainRuns d = true ∧ e.after.drainRuns d = false

/-- The change of attempt `n` that a step makes. -/
def change (e : Entry) (n : Nat) : List Moment :=
  match due e.before.session e.after.session with
  | some (m, s) =>
    if m = n then
      .changed s :: if e.after.session.state = .awaitingPermission then [.waits] else []
    else []
  | none => []

/-- What a step is to attempt `n`. -/
def moments (e : Entry) (n : Nat) : List Moment :=
  e.shows n ++ ((e.stops n).map .stopped ++ e.change n)

end Entry

/-- What happened to attempt `n`, in order. -/
def moments (es : List Entry) (n : Nat) : List Moment := es.flatMap fun e => e.moments n

/-- The moment is a callback. -/
def Moment.isCallback : Moment → Bool
  | .told _ | .given _ => true
  | .changed _ | .waits | .checked _ | .stopped _ => false

/-- The callbacks of attempt `n`, in order. -/
def callbacks (es : List Entry) (n : Nat) : List Moment := (moments es n).filter Moment.isCallback

theorem moments_snoc (es : List Entry) (e : Entry) (n : Nat) :
    moments (es ++ [e]) n = moments es n ++ e.moments n := by
  unfold moments
  rw [List.flatMap_append, List.flatMap_singleton]

theorem mem_change {e : Entry} {n : Nat} {s : ConnectionState} :
    .changed s ∈ e.change n ↔ due e.before.session e.after.session = some (n, s) := by
  unfold Entry.change
  rcases due e.before.session e.after.session with _ | ⟨m, r⟩
  · simp
  · by_cases hm : m = n
    · simp only [hm, if_true, List.mem_cons, Moment.changed.injEq, Option.some.injEq,
        Prod.mk.injEq, true_and]
      constructor
      · rintro (h | h)
        · exact h.symm
        · split at h <;> simp at h
      · exact fun h => Or.inl h.symm
    · simp [hm]

theorem mem_momentOf {c : Connection} {n : Nat} {m : Moment} {effects : List Effect} :
    m ∈ effects.filterMap (momentOf c n) ↔
      (∃ notice, .notified n notice ∈ effects ∧ m = .told notice.state) ∨
        ∃ d batch, .delivered d batch ∈ effects ∧ c.drainAttempt d = some n ∧ m = .given d := by
  rw [List.mem_filterMap]
  constructor
  · rintro ⟨e, he, hm⟩
    cases e <;> simp only [momentOf, reduceCtorEq] at hm
    case notified k notice =>
      split at hm
      · rename_i hk
        subst hk
        exact Or.inl ⟨notice, he, (Option.some.inj hm).symm⟩
      · cases hm
    case delivered d batch =>
      split at hm
      · exact Or.inr ⟨d, batch, he, ‹_›, (Option.some.inj hm).symm⟩
      · cases hm
  · rintro (⟨notice, he, rfl⟩ | ⟨d, batch, he, hd, rfl⟩)
    · exact ⟨_, he, by simp [momentOf]⟩
    · exact ⟨_, he, by simp [momentOf, hd]⟩

theorem mem_shows {e : Entry} {n : Nat} {m : Moment} :
    m ∈ e.shows n ↔ (∃ d, d ∈ e.checks n ∧ m = .checked d) ∨
      (∃ notice, .notified n notice ∈ e.effects ∧ m = .told notice.state) ∨
        ∃ d batch, .delivered d batch ∈ e.effects ∧ e.before.drainAttempt d = some n ∧
          m = .given d := by
  rw [Entry.shows, List.mem_append, mem_momentOf, List.mem_map]
  simp only [eq_comm (a := m)]

/-- A change is a change of the session, or the wait that it begins. -/
theorem eq_of_mem_change {e : Entry} {n : Nat} {m : Moment} (h : m ∈ e.change n) :
    (∃ s, m = .changed s) ∨ m = .waits := by
  unfold Entry.change at h
  split at h
  · split at h
    · rcases List.mem_cons.mp h with h | h
      · exact Or.inl ⟨_, h⟩
      · split at h
        · exact Or.inr (List.mem_singleton.mp h)
        · cases h
    · cases h
  · cases h

theorem mem_changed {es : List Entry} {n : Nat} {s : ConnectionState} :
    .changed s ∈ moments es n ↔ 0 < changes es n s := by
  unfold moments changes
  rw [List.mem_flatMap, List.countP_pos_iff]
  simp only [Entry.moments, List.mem_append, mem_shows, mem_change, List.mem_map,
    decide_eq_true_eq, reduceCtorEq, and_false, exists_false, false_or]

theorem mem_told {es : List Entry} {n : Nat} {s : ConnectionState} :
    .told s ∈ moments es n ↔ 0 < (es.flatMap (·.effects)).countP (·.tells n s) := by
  have hno : ∀ e : Entry, .told s ∉ e.change n := by
    intro e he
    rcases eq_of_mem_change he with ⟨r, hr⟩ | hr <;> cases hr
  have htells : ∀ f : Effect, f.tells n s = true ↔
      ∃ notice, f = .notified n notice ∧ Moment.told s = .told notice.state := by
    intro f
    cases f <;> simp only [Effect.tells, Bool.false_eq_true, reduceCtorEq, false_and, exists_false]
    case notified m notice =>
      rw [Bool.and_eq_true, beq_iff_eq, beq_iff_eq]
      constructor
      · rintro ⟨rfl, rfl⟩
        exact ⟨notice, rfl, rfl⟩
      · rintro ⟨_, he, hs⟩
        cases he
        exact ⟨rfl, (Moment.told.inj hs).symm⟩
  unfold moments
  rw [List.mem_flatMap, List.countP_pos_iff]
  simp only [Entry.moments, List.mem_append, mem_shows, List.mem_map, hno, List.mem_flatMap,
    htells, reduceCtorEq, and_false, exists_false, or_false, false_or]
  constructor
  · rintro ⟨e, he, notice, hn, hs⟩
    exact ⟨_, ⟨e, he, hn⟩, notice, rfl, hs⟩
  · rintro ⟨_, ⟨e, he, hn⟩, notice, rfl, hs⟩
    exact ⟨e, he, notice, hn, hs⟩

/-! ## The batch under way -/

/-- The moment is a check, or the batch behind it. -/
def Moment.isBatch : Moment → Bool
  | .checked _ | .given _ => true
  | .changed _ | .waits | .told _ | .stopped _ => false

/-- The drain with a batch to give behind a moment, by the one before it. -/
def Moment.hand (drain : Option Nat) : Moment → Option Nat
  | .checked d => some d
  | .given _ => none
  | .changed _ | .waits | .told _ | .stopped _ => drain

/-- The drain that has checked and not yet given its batch. -/
def inHand (ms : List Moment) : Option Nat := ms.foldl Moment.hand none

@[simp] theorem inHand_snoc (ms : List Moment) (m : Moment) :
    inHand (ms ++ [m]) = m.hand (inHand ms) := by
  unfold inHand
  rw [List.foldl_append]
  rfl

theorem inHand_still {ms later : List Moment} (h : ∀ m ∈ later, m.isBatch = false) :
    inHand (ms ++ later) = inHand ms := by
  induction later using List.reverseRecOn with
  | nil => rw [List.append_nil]
  | append_singleton later m ih =>
    obtain ⟨hlater, hm⟩ := List.forall_mem_append.mp h
    have hm := List.forall_mem_singleton.mp hm
    rw [← List.append_assoc, inHand_snoc, ← ih hlater]
    cases m <;> first | rfl | cases hm

theorem checked_of_inHand {ms : List Moment} {d : Nat} (h : inHand ms = some d) :
    .checked d ∈ ms := by
  induction ms using List.reverseRecOn with
  | nil => cases h
  | append_singleton ms m ih =>
    rw [inHand_snoc] at h
    rw [List.mem_append, List.mem_singleton]
    cases m with
    | checked k => exact Or.inr (by rw [Option.some.inj h])
    | given k => cases h
    | _ => exact Or.inl (ih h)

/-! ## What may come behind what -/

/-- The session may come to one state of an attempt behind another. -/
inductive Follows : ConnectionState → ConnectionState → Prop
  | up : Follows .connecting .connected
  | failed : Follows .connecting .failed
  | gone : Follows .connecting .disconnected
  | down : Follows .connected .disconnected

/-- The attempt was told to be connecting, unless it had to wait for its grant. -/
def Introduced (before : List Moment) : Prop := .waits ∈ before ∨ .told .connecting ∈ before

/-- What may come behind the moments of an attempt so far. -/
def Allowed (before : List Moment) : Moment → Prop
  | .changed s => (∀ r, .changed r ∈ before → Follows r s) ∧
      (s = .connecting ∨ .changed .connecting ∈ before) ∧
      (s = .connected ∨ s = .failed → Introduced before)
  | .waits => True
  | .told s => .changed s ∈ before ∧ .told s ∉ before
  | .checked drain => .changed .connecting ∈ before ∧ Introduced before ∧
      .stopped drain ∉ before ∧
      (.changed .connected ∈ before → .changed .disconnected ∉ before) ∧ inHand before = none
  | .given drain => inHand before = some drain
  | .stopped _ => True

/-- Each moment is allowed behind the moments before it. -/
inductive Orderly : List Moment → Prop
  | nil : Orderly []
  | snoc {ms : List Moment} {m : Moment} : Orderly ms → Allowed ms m → Orderly (ms ++ [m])

section Orderly

variable {ms before after : List Moment} {m : Moment} {a b s : ConnectionState} {d : Nat}

theorem Orderly.at (h : Orderly ms) (he : ms = before ++ m :: after) :
    Orderly before ∧ Allowed before m := by
  induction h generalizing after with
  | nil => simp at he
  | @snoc ms last hms hlast ih =>
    rcases List.eq_nil_or_concat after with rfl | ⟨after, x, rfl⟩
    · obtain ⟨rfl, hm⟩ := List.append_inj' he rfl
      obtain ⟨rfl, _⟩ := List.cons.inj hm
      exact ⟨hms, hlast⟩
    · have hsplit : ms ++ [last] = (before ++ m :: after) ++ [x] := by
        rw [he, List.concat_eq_append, List.append_assoc, List.cons_append]
      exact ih (List.append_inj' hsplit rfl).1

theorem Orderly.told_at (h : Orderly ms) (he : ms = before ++ .told s :: after) :
    .changed s ∈ before ∧ .told s ∉ before := (h.at he).2

theorem Orderly.changed_at (h : Orderly ms) (he : ms = before ++ .changed s :: after) :
    (∀ r, .changed r ∈ before → Follows r s) ∧
      (s = .connected ∨ s = .failed → Introduced before) :=
  ⟨(h.at he).2.1, (h.at he).2.2.2⟩

theorem Orderly.checked_at (h : Orderly ms) (he : ms = before ++ .checked d :: after) :
    Introduced before ∧ .stopped d ∉ before ∧
      (.changed .connected ∈ before → .changed .disconnected ∉ before) :=
  ⟨(h.at he).2.2.1, (h.at he).2.2.2.1, (h.at he).2.2.2.2.1⟩

theorem Orderly.given_at (h : Orderly ms) (he : ms = before ++ .given d :: after) :
    inHand before = some d := (h.at he).2

/-- Of two moments in a row the earlier one is among those before the later. -/
theorem split_of_pair {x y : Moment} (h : [x, y].Sublist ms) :
    ∃ before after, ms = before ++ y :: after ∧ x ∈ before := by
  obtain ⟨front, back, rfl, hx, hy⟩ := List.cons_sublist_iff.mp h
  obtain ⟨between, after, rfl⟩ := List.append_of_mem (List.singleton_sublist.mp hy)
  exact ⟨front ++ between, after, by rw [List.append_assoc], List.mem_append_left _ hx⟩

theorem pair_of_split {x y : Moment} (hx : x ∈ before) (hy : y ∈ after) :
    [x, y].Sublist (before ++ after) :=
  (List.singleton_sublist.mpr hx).append (List.singleton_sublist.mpr hy)

theorem pair_behind {x y : Moment} (hy : y ∈ after) : [x, y].Sublist (before ++ x :: after) :=
  (List.Sublist.cons_cons _ (List.singleton_sublist.mpr hy)).trans
    (List.sublist_append_right before _)

theorem Orderly.follows (h : Orderly ms) (hab : [.changed a, .changed b].Sublist ms) :
    Follows a b := by
  obtain ⟨before, after, he, ha⟩ := split_of_pair hab
  exact (h.changed_at he).1 a ha

/-- Of two different moments one comes first. -/
theorem pair_of_mem {x y : Moment} (hx : x ∈ ms) (hy : y ∈ ms) (hne : x ≠ y) :
    [x, y].Sublist ms ∨ [y, x].Sublist ms := by
  obtain ⟨before, after, rfl⟩ := List.append_of_mem hx
  rcases List.mem_append.mp hy with hy | hy
  · exact Or.inr (pair_of_split hy (List.mem_cons_self ..))
  · rcases List.mem_cons.mp hy with rfl | hy
    · exact absurd rfl hne
    · exact Or.inl (pair_behind hy)

/-- No callback is made twice. -/
theorem Orderly.once (h : Orderly ms) : ¬ [.told s, .told s].Sublist ms := by
  intro hss
  obtain ⟨before, after, he, hs⟩ := split_of_pair hss
  exact (h.told_at he).2 hs

theorem Orderly.changed_of_told (h : Orderly ms) (ht : .told s ∈ ms) : .changed s ∈ ms := by
  obtain ⟨before, after, he⟩ := List.append_of_mem ht
  rw [he]
  exact List.mem_append_left _ (h.told_at he).1

/-- Two callbacks come in the order of their changes, unless the later one had not been made yet
when the session changed again. -/
theorem Orderly.overtakes (h : Orderly ms) (hab : [.told a, .told b].Sublist ms) :
    Follows a b ∨ [.changed b, .changed a, .told a, .told b].Sublist ms := by
  have hne : a ≠ b := by
    rintro rfl
    exact h.once hab
  obtain ⟨before, after, hb, ha⟩ := split_of_pair hab
  have hcb : .changed b ∈ before := (h.told_at hb).1
  obtain ⟨past, between, rfl⟩ := List.append_of_mem ha
  have hca : .changed a ∈ past := ((h.at hb).1.told_at rfl).1
  obtain ⟨first, rest, rfl⟩ := List.append_of_mem hca
  rw [List.append_assoc, List.cons_append, List.mem_append, List.mem_cons] at hcb
  rcases hcb with hcb | hcb | hcb
  · right
    rw [hb, List.append_assoc, List.append_assoc]
    refine (List.singleton_sublist.mpr hcb).append (List.Sublist.cons_cons _ ?_)
    exact pair_behind (List.mem_append_right _ (List.mem_cons_self ..))
  · exact absurd (Moment.changed.inj hcb).symm hne
  · left
    apply h.follows
    have hback : .changed b ∈ rest ++ (.told a :: between ++ .told b :: after) := by
      rw [← List.append_assoc]
      exact List.mem_append_left _ hcb
    rw [hb, List.append_assoc, List.append_assoc]
    exact pair_behind hback

/-- Where a drain checks no more, it gives no more than the batch it had checked for. -/
theorem Orderly.given_behind (h : Orderly (before ++ after)) (hno : .checked d ∉ after) :
    after.count (.given d) ≤ if inHand before = some d then 1 else 0 := by
  -- The induction goes over the moments behind, and counts the batch under way among them.
  suffices hcount : after.count (.given d) + (if inHand (before ++ after) = some d then 1 else 0) ≤
      if inHand before = some d then 1 else 0 by omega
  induction after using List.reverseRecOn with
  | nil => simp
  | append_singleton after m ih =>
    rw [← List.append_assoc] at h
    obtain ⟨hbefore, hallowed⟩ := h.at rfl
    rw [List.mem_append, List.mem_singleton, not_or] at hno
    have hprev := ih hbefore hno.1
    rw [← List.append_assoc, inHand_snoc, List.count_append]
    cases m with
    | checked k =>
      have hk : k ≠ d := fun he => hno.2 (he ▸ rfl)
      simp only [Moment.hand, Option.some.injEq, hk, if_false]
      simp only [List.count_singleton, beq_iff_eq, reduceCtorEq, if_false]
      omega
    | given k =>
      have hin : inHand (before ++ after) = some k := hallowed
      rw [hin] at hprev
      simp only [Moment.hand, reduceCtorEq, if_false, List.count_singleton, beq_iff_eq,
        Moment.given.injEq]
      simp only [Option.some.injEq] at hprev
      exact hprev
    | _ =>
      simp only [Moment.hand, List.count_singleton, beq_iff_eq, reduceCtorEq, if_false]
      exact hprev

/-- A drain of an attempt that came up checks no more once its end was told. -/
theorem Orderly.checked_while_up (h : Orderly ms) (hup : .changed .connected ∈ ms)
    (hs : s = .disconnected ∨ s = .failed) : ¬ [.told s, .checked d].Sublist ms := by
  intro hsd
  obtain ⟨before, after, he, ht⟩ := split_of_pair hsd
  have hc : .changed s ∈ before := (h.at he).1.changed_of_told ht
  rw [he] at hup
  rcases List.mem_append.mp hup with hup | hup
  · rcases hs with rfl | rfl
    · exact (h.checked_at he).2.2 hup hc
    · rcases pair_of_mem hup hc (by simp) with hpair | hpair <;>
        cases (h.at he).1.follows hpair
  · have hf : Follows s .connected := h.follows (he ▸ pair_of_split hc hup)
    rcases hs with rfl | rfl <;> cases hf

/-- Where access was held, an attempt is told to be connecting before it can be told to be
connected or to have failed, and before a batch. -/
theorem Orderly.introduced (h : Orderly ms) (hw : .waits ∉ ms) {x : Moment}
    (hx : x = .told .connected ∨ x = .told .failed ∨ x = .given d) :
    ¬ [x, .told .connecting].Sublist ms := by
  intro hpair
  obtain ⟨before, after, he, hmem⟩ := split_of_pair hpair
  have hnone : .waits ∉ before ∧ .told .connecting ∉ before :=
    ⟨fun hb => hw (he ▸ List.mem_append_left _ hb), (h.told_at he).2⟩
  have hno : ∀ past, past ⊆ before → ¬ Introduced past := by
    rintro past hsub (hb | hb)
    · exact hnone.1 (hsub hb)
    · exact hnone.2 (hsub hb)
  have htold : ∀ a, a = .connected ∨ a = .failed → .told a ∉ before := by
    intro a ha ht
    obtain ⟨past, rest, hsplit⟩ := List.append_of_mem ((h.at he).1.changed_of_told ht)
    refine hno past ?_ (((h.at he).1.changed_at hsplit).2 ha)
    rw [hsplit]
    exact List.subset_append_left ..
  rcases hx with rfl | rfl | rfl
  · exact htold _ (Or.inl rfl) hmem
  · exact htold _ (Or.inr rfl) hmem
  · obtain ⟨past, rest, hsplit⟩ := List.append_of_mem hmem
    obtain ⟨first, between, hchecked⟩ :=
      List.append_of_mem (checked_of_inHand ((h.at he).1.given_at hsplit))
    rw [hchecked, List.append_assoc] at hsplit
    refine hno first ?_ ((h.at he).1.checked_at hsplit).1
    rw [hsplit]
    exact List.subset_append_left ..

end Orderly
end SerialLink.Connection
