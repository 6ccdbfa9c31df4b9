-- The order of callbacks. Each is made outside the lock, by whichever thread
-- changed the session, so the thread of a later change may be faster. What
-- orders them all the same: a callback comes behind its change, the changes of
-- an attempt are in order, a drain checks that it was not stopped before it
-- gives a batch, and the thread that begins an attempt with access tells of that
-- before it opens the port.
import SerialLink.Proofs.Connection.Attempts
import SerialLink.Proofs.Connection.Passage
import SerialLink.Proofs.Connection.Threads

namespace SerialLink.Connection

/-! ## The thread that begins an attempt -/

/-- A thread that has yet to tell that an attempt connects, tells of it before it brings the
attempt on its way, and does nothing else. -/
def Introducing (l : List Task) : Prop :=
  (.connect ∈ l → l = [.connect]) ∧ ∀ n, .notify n .connecting ∈ l → ∃ t r, t.drives = some n ∧
    (l = [.resetChecker, .notify n .connecting, t, .finish r] ∨
      l = [.notify n .connecting, t, .finish r])

section Introducing

variable {c : Connection} {task : Task} {o : Outcome} {n : Nat}

/-- Only a call to connect leaves a callback that an attempt connects. -/
theorem Turn.introduces (h : Turn c task o) (hn : .notify n .connecting ∈ o.next) :
    task = .connect ∧ ∃ t r, t.drives = some n ∧
      o.next = [.resetChecker, .notify n .connecting, t, .finish r] := by
  have hrelease : ∀ r, .notify n .connecting ∉ releaseTasks r := by
    intro r hr
    cases isRelease_of_mem hr
  cases h with
  | worker _ _ _ hnext =>
    rcases hnext _ hn with hw | ⟨_, _, _, _, _, he⟩
    · cases hw
    · cases he
  | aside _ _ _ hnext =>
    obtain ⟨_, _, _, he⟩ := hnext _ hn
    cases he
  | @begun subscription permitted =>
    cases permitted <;> simp at hn <;> subst hn <;> exact ⟨rfl, _, _, rfl, rfl⟩
  | failed | torn =>
    rcases List.mem_append.mp hn with hn | hn
    · exact absurd hn (hrelease _)
    · cases List.mem_singleton.mp hn
  | letGo => exact absurd hn (hrelease _)
  | _ => simp at hn

theorem Turn.starts_no_call (h : Turn c task o) :
    .connect ∉ o.next ∧ ∀ l ∈ o.started, .connect ∉ l ∧ .notify n .connecting ∉ l := by
  have hrelease : ∀ r, .connect ∉ releaseTasks r := by
    intro r hr
    cases isRelease_of_mem hr
  cases h with
  | worker _ _ _ hnext hs =>
    rw [hs]
    refine ⟨?_, by simp⟩
    intro hn
    rcases hnext _ hn with hw | ⟨_, _, _, _, _, he⟩
    · cases hw
    · cases he
  | aside _ _ _ hnext hs =>
    rw [hs]
    refine ⟨?_, by simp⟩
    intro hn
    obtain ⟨_, _, _, he⟩ := hnext _ hn
    cases he
  | @begun subscription permitted => cases permitted <;> simp
  | failed | torn | letGo => simp [hrelease]
  | _ => simp

theorem introducing_of_moves (c : Connection) (moves : List Move) :
    ∀ l ∈ (History.of c moves).machine.threads, Introducing l := by
  refine History.every_thread (Q := fun _ l => Introducing l) (fun h => h) ?_ ?_ moves
  · intro es d others move task hb
    cases hb <;> exact ⟨by simp, by simp⟩
  · intro es d task rest move x o ho hl
    have hturn := exec_turn ho
    have hrest : .connect ∉ rest := by
      intro hmem
      obtain ⟨_, rfl⟩ := List.cons.inj (hl.1 (List.mem_cons_of_mem _ hmem))
      cases hmem
    intro l hmem
    rcases List.mem_cons.mp hmem with rfl | hmem
    · refine ⟨?_, ?_⟩
      · intro hc
        rcases List.mem_append.mp hc with hc | hc
        · exact absurd hc (hturn.starts_no_call (n := 0)).1
        · exact absurd hc hrest
      · intro n hn
        rcases List.mem_append.mp hn with hn | hn
        · obtain ⟨rfl, t, r, ht, hnext⟩ := hturn.introduces hn
          obtain ⟨_, rfl⟩ := List.cons.inj (hl.1 (List.mem_cons_self ..))
          exact ⟨t, r, ht, Or.inl (by rw [hnext, List.append_nil])⟩
        · obtain ⟨t, r, ht, he | he⟩ := hl.2 n (List.mem_cons_of_mem _ hn)
          · obtain ⟨rfl, rfl⟩ := List.cons.inj he
            have hnext : o.next = [] := by
              rw [exec, Option.some.injEq] at ho
              rw [← ho]
            exact ⟨t, r, ht, Or.inr (by rw [hnext, List.nil_append])⟩
          · obtain ⟨_, rfl⟩ := List.cons.inj he
            rcases List.mem_cons.mp hn with rfl | hn
            · cases ht
            · cases List.mem_singleton.mp hn
    · have hno := fun n => (hturn.starts_no_call (n := n)).2 l hmem
      exact ⟨fun hc => absurd hc (hno 0).1, fun n hn => absurd hn (hno n).2⟩

/-- While the callback that an attempt connects is yet to be made, no task for the attempt is at the
head of its thread, unless there are two. -/
theorem two_drivers {m m' : Machine} {move : Move} {e : Entry} (h : m.move move = some (e, m'))
    (hl : ∀ l ∈ m.threads, Introducing l) (hd : e.task.drives = some n)
    (hn : .notify n .connecting ∈ m.pending) : 2 ≤ drivers m.pending n := by
  obtain ⟨source, head, ran, rfl, rfl⟩ := advances_of_move h
  rename_i threads thread task rest o
  have hsame : threads = m.threads := by
    rcases source with hs | ⟨_, hb⟩
    · exact hs
    · rw [drives_of_begins hb] at hd
      cases hd
  subst hsame
  obtain ⟨others, hp, hp'⟩ := pending_split head
  obtain ⟨l, hlmem, hln⟩ := List.mem_flatten.mp (Multiset.mem_coe.mp hn)
  obtain ⟨t, r, ht, hshape⟩ := (hl l hlmem).2 n hln
  have htl : t ∈ l := by rcases hshape with rfl | rfl <;> simp
  -- The thread that has the callback to make is another one: its first task is not for the
  -- attempt.
  have hother : l ≠ task :: rest := by
    rintro rfl
    rcases hshape with he | he <;> obtain ⟨rfl, _⟩ := List.cons.inj he <;> cases hd
  have hmem : t ∈ others := by
    obtain ⟨k, hk⟩ := List.mem_iff_getElem?.mp hlmem
    have hne : thread ≠ k := by
      rintro rfl
      exact hother (Option.some.inj (hk.symm.trans head))
    have hin : l ∈ m.threads.set thread rest :=
      List.mem_of_getElem? (by rw [List.getElem?_set_ne hne]; exact hk)
    have hset := hp' [] []
    rw [List.nil_append, List.append_nil] at hset
    have : t ∈ ((m.threads.set thread rest).flatten : Multiset Task) :=
      Multiset.mem_coe.mpr (List.mem_flatten_of_mem hin htl)
    rw [hset] at this
    simpa using this
  unfold Machine.pending
  rw [hp, drivers_cons, if_pos hd]
  have hpos : 0 < drivers others n := Multiset.countP_pos.mpr ⟨t, hmem, by simpa using ht⟩
  omega

end Introducing

/-! ## Changes of an attempt -/

section Changes

variable {es : List Entry} {s s' : Session} {task : Task} {n : Nat} {r t : ConnectionState}

/-- A wait for the grant is no change that is told. -/
theorem changes_waiting (es : List Entry) (n : Nat) : changes es n .awaitingPermission = 0 := by
  refine List.countP_eq_zero.mpr fun e _ he => ?_
  have he := of_decide_eq_true he
  unfold due at he
  split at he
  · cases he
  · split at he
    · cases he
    · split at he <;> cases he

/-- A change comes behind the changes of its attempt so far. -/
theorem follows_of_change (h : Tally es s n) (hch : Change s task s')
    (hd : due s s' = some (n, t)) (hr : 0 < changes es n r) : Follows r t := by
  rw [due_change hch] at hd
  obtain ⟨hbegun, _, hnot_up, hnot_begun, hended, _⟩ := h
  cases hch with
  | begun hs =>
    rw [(not_isLive_iff _).mpr hs] at hd
    cases hd
    rw [if_neg (by omega)] at hbegun
    rw [if_neg (by omega)] at hended
    have := hnot_begun (Nat.lt_succ_self _)
    have := changes_waiting es (s.attempt + 1)
    cases r <;> omega
  | granted hs hs' =>
    rw [hs, hs'] at hd
    cases hd
  | failed hs hs' =>
    have hlive : s.state.isLive = true := (isLive_iff _).mpr (hs.imp_right Or.inl)
    rw [hlive, hs'] at hd
    cases hd
    rw [if_neg (by simp [hlive])] at hended
    have := hnot_up rfl hs
    have := changes_waiting es s.attempt
    cases r <;> first | exact .failed | omega
  | completed hs hs' =>
    have hlive : s.state.isLive = true := (isLive_iff _).mpr (Or.inr (Or.inl hs))
    rw [hlive, hs'] at hd
    cases hd
    rw [if_neg (by simp [hlive])] at hended
    have := hnot_up rfl (Or.inr hs)
    have := changes_waiting es s.attempt
    cases r <;> first | exact .up | omega
  | ended hs hs' =>
    have hlive : s.state.isLive = true := (isLive_iff _).mpr hs
    rw [hlive, hs'] at hd
    cases hd
    rw [if_neg (by simp [hlive])] at hended
    have := changes_waiting es s.attempt
    cases r <;> first | exact .gone | exact .down | omega

/-- A change is the beginning of its attempt, or comes behind that. -/
theorem begun_of_change (h : Tally es s n) (hch : Change s task s')
    (hd : due s s' = some (n, t)) : t = .connecting ∨ 0 < changes es n .connecting := by
  rw [due_change hch] at hd
  have hlive : s.state.isLive = true → n = s.attempt → 0 < changes es n .connecting := by
    rintro hl rfl
    rw [h.begun, if_pos ⟨h.live_pos hl, Nat.le_refl _⟩]
    omega
  rcases hl : s.state.isLive
  · rw [hl] at hd
    cases hd
    exact Or.inl rfl
  · rw [hl] at hd
    right
    refine hlive hl ?_
    rcases hs' : s'.state <;> rw [hs'] at hd <;> cases hd <;> rfl

/-- An attempt comes up, or fails, by a task that is for it. -/
theorem drives_of_change (hch : Change s task s') (hd : due s s' = some (n, t))
    (ht : t = .connected ∨ t = .failed) : task.drives = some n := by
  rw [due_change hch] at hd
  cases hch with
  | begun hs =>
    rw [(not_isLive_iff _).mpr hs] at hd
    cases hd
    rcases ht with ht | ht <;> cases ht
  | granted hs hs' =>
    rw [hs, hs'] at hd
    cases hd
  | failed hs hs' =>
    rw [(isLive_iff _).mpr (hs.imp_right Or.inl), hs'] at hd
    cases hd
    rfl
  | completed hs hs' =>
    rw [hs, hs'] at hd
    cases hd
    rfl
  | ended hs hs' =>
    rw [(isLive_iff _).mpr hs, hs'] at hd
    cases hd
    rcases ht with ht | ht <;> cases ht

end Changes

/-! ## Callbacks where they are made -/

section Callbacks

variable {c : Connection} {x : Outside} {task : Task} {o : Outcome} {n k : Nat}

theorem drainAttempt_of_runs (h : c.drainRuns k = true) : ∃ n, c.drainAttempt k = some n := by
  unfold drainRuns at h
  unfold drainAttempt
  rcases hd : c.drains[k]? with _ | d
  · simp [hd] at h
  · exact ⟨d.attempt, rfl⟩

theorem checks_of_stopped {es : List Effect} {move : Move} {d : Connection}
    (h : ∀ k batch, task = .deliver k batch → c.drainRuns k = false) :
    Entry.checks ⟨move, c, task, es, d⟩ n = [] := by
  unfold Entry.checks
  split
  · rename_i k batch he
    rw [if_neg (by simp [h k batch he])]
  · rfl

theorem told_alone {notice : Notice} (h : Turn c task o)
    (hn : .notified n notice ∈ o.effects) :
    task = .notify n notice ∧ o.effects = [.notified n notice] := by
  cases h with
  | worker _ _ he => cases he _ hn
  | aside _ _ he => cases he _ hn
  | notified =>
    cases List.mem_singleton.mp hn
    exact ⟨rfl, rfl⟩
  | _ => simp at hn

/-- What a step shows of an attempt is one callback, one check, one batch or nothing. -/
theorem shows_cases (h : c.exec x task = some o) (move : Move) (n : Nat) :
    let e : Entry := ⟨move, c, task, o.effects, o.connection⟩
    e.shows n = [] ∨
      (∃ notice, task = .notify n notice ∧ e.shows n = [.told notice.state]) ∨
      (∃ k, c.delivering = none ∧ c.drainRuns k = true ∧ c.drainAttempt k = some n ∧
        e.shows n = [.checked k]) ∨
      ∃ k batch, task = .give k batch ∧ c.drainAttempt k = some n ∧ e.shows n = [.given k] := by
  intro e
  cases calls_of_exec h with
  | @goes k batch hidle hrun =>
    by_cases hk : c.drainAttempt k = some n
    · exact Or.inr (Or.inr (Or.inl ⟨k, hidle, hrun, hk, by
        simp [e, Entry.shows, Entry.checks, hk, hrun]⟩))
    · exact Or.inl (by simp [e, Entry.shows, Entry.checks, hk])
  | @calls k batch =>
    by_cases hk : c.drainAttempt k = some n
    · exact Or.inr (Or.inr (Or.inr ⟨k, batch, rfl, hk, by
        simp [e, Entry.shows, Entry.checks, stepGive, momentOf, hk]⟩))
    · exact Or.inl (by simp [e, Entry.shows, Entry.checks, stepGive, momentOf, hk])
  | comesBack => exact Or.inl rfl
  | elsewhere _ hstop _ hno =>
    have hchecks : e.checks n = [] := checks_of_stopped hstop
    have hshows : e.shows n = o.effects.filterMap (momentOf c n) := by
      rw [Entry.shows, hchecks, List.map_nil, List.nil_append]
    rw [hshows]
    rcases hl : o.effects.filterMap (momentOf c n) with _ | ⟨m, rest⟩
    · exact Or.inl rfl
    · have hm : m ∈ o.effects.filterMap (momentOf c n) := by
        rw [hl]
        exact List.mem_cons_self ..
      rcases mem_momentOf.mp hm with ⟨notice, hn, rfl⟩ | ⟨k, batch, hk, _⟩
      · obtain ⟨htask, he⟩ := told_alone (exec_turn h) hn
        rw [he] at hl
        exact Or.inr (Or.inl ⟨notice, htask, by rw [← hl]; simp [momentOf]⟩)
      · exact absurd hk (hno k batch)

end Callbacks

/-! ## One batch at a time -/

/-- Pending tasks of drains that are about to call the consumer, or are with it. -/
def callers (P : Multiset Task) : Nat := P.countP fun t => t.isCalling

/-- One drain at a time is at the consumer, and it has checked that it may go on. -/
structure AtConsumer (es : List Entry) (c : Connection) (P : Multiset Task) (n : Nat) : Prop where
  one : callers P = if c.delivering.isSome then 1 else 0
  hand : ∀ k batch, .give k batch ∈ P → ∃ m, c.drainAttempt k = some m ∧
    inHand (moments es n) = if m = n then some k else none
  idle : (∀ k batch, .give k batch ∉ P) → inHand (moments es n) = none

section AtConsumer

variable {es : List Entry} {c : Connection} {x : Outside} {task : Task} {o : Outcome} {move : Move}
  {P others : Multiset Task} {n : Nat}

theorem callers_cons (t : Task) (P : Multiset Task) :
    callers (t ::ₘ P) = callers P + if t.isCalling then 1 else 0 := by
  unfold callers
  rw [Multiset.countP_cons]

theorem callers_add (P Q : Multiset Task) : callers (P + Q) = callers P + callers Q :=
  Multiset.countP_add ..

theorem callers_zero (h : ∀ t ∈ P, t.isCalling = false) : callers P = 0 :=
  Multiset.countP_eq_zero.mpr fun t ht => by simp [h t ht]

theorem no_give (h : callers P = 0) (k : Nat) (batch : Bytes) : .give k batch ∉ P :=
  fun hmem => Multiset.countP_eq_zero.mp h _ hmem rfl

/-- The ends of drains and the changes of the session leave the batch under way alone. -/
theorem inHand_moments (es : List Entry) (e : Entry) (n : Nat) :
    inHand (moments (es ++ [e]) n) = inHand (moments es n ++ e.shows n) := by
  rw [moments_snoc, Entry.moments, ← List.append_assoc]
  refine inHand_still fun m hm => ?_
  rcases List.mem_append.mp hm with hm | hm
  · obtain ⟨_, _, rfl⟩ := List.mem_map.mp hm
    rfl
  · rcases eq_of_mem_change hm with ⟨_, rfl⟩ | rfl <;> rfl

/-- A new thread does not begin at the consumer. -/
theorem AtConsumer.begin (h : AtConsumer es c others n) (hb : Begins c others move task) :
    AtConsumer es c (task ::ₘ others) n := by
  have hq : task.isCalling = false := by cases hb <;> rfl
  have hmem : ∀ k batch, .give k batch ∈ task ::ₘ others → .give k batch ∈ others := by
    intro k batch ht
    rcases Multiset.mem_cons.mp ht with rfl | ht
    · cases hq
    · exact ht
  refine ⟨?_, fun k batch ht => h.hand k batch (hmem k batch ht), fun hno => h.idle ?_⟩
  · rw [callers_cons, hq, h.one]
    rfl
  · exact fun k batch ht => hno k batch (Multiset.mem_cons_of_mem ht)

/-- At the consumer there is the drain that went there, and no other one. -/
theorem callers_step (ho : c.exec x task = some o)
    (h : callers (task ::ₘ others) = if c.delivering.isSome then 1 else 0) :
    callers ((o.next : Multiset Task) + (o.started.flatten : Multiset Task) + others) =
      if o.connection.delivering.isSome then 1 else 0 := by
  rw [callers_cons] at h
  rw [callers_add]
  cases calls_of_exec ho with
  | goes hidle =>
    rw [hidle] at h
    have hothers : callers others = 0 := h
    rw [hothers]
    rfl
  | calls => exact (Nat.add_comm 1 _).trans h
  | comesBack =>
    have hone : callers others + 1 = if c.delivering.isSome then 1 else 0 := h
    have hothers : callers others = 0 := by
      split at hone <;> omega
    rw [hothers]
    rfl
  | elsewhere hq _ hsame _ hleaves =>
    rw [callers_zero hleaves, hsame, Nat.zero_add, ← h, hq]
    rfl

/-- While a drain is at the consumer, or goes there, no other one is about to call. -/
theorem AtConsumer.others_quiet (h : AtConsumer es c (task ::ₘ others) n)
    (ht : task.isCalling = true ∨ c.delivering = none) : callers others = 0 := by
  have hone := h.one
  rw [callers_cons] at hone
  rcases ht with ht | ht
  · rw [if_pos ht] at hone
    split at hone <;> omega
  · rw [ht] at hone
    exact Nat.eq_zero_of_add_eq_zero_right hone

theorem give_mem_cons (h : callers others = 0) {k : Nat} {batch : Bytes} :
    .give k batch ∈ task ::ₘ others ↔ .give k batch = task := by
  rw [Multiset.mem_cons, or_iff_left (no_give h k batch)]

theorem give_mem_add (h : callers others = 0) {k : Nat} {batch : Bytes} :
    .give k batch ∈ P + others ↔ .give k batch ∈ P := by
  rw [Multiset.mem_add, or_iff_left (no_give h k batch)]

/-- A task that is not at the consumer leaves it to those that are. -/
theorem give_mem_elsewhere (others : Multiset Task) (hq : task.isCalling = false)
    (hleaves : ∀ t ∈ (o.next : Multiset Task) + (o.started.flatten : Multiset Task),
      t.isCalling = false) (k : Nat) (batch : Bytes) :
    .give k batch ∈ (o.next : Multiset Task) + (o.started.flatten : Multiset Task) + others ↔
      .give k batch ∈ task ::ₘ others := by
  have hnext : .give k batch ∉ (o.next : Multiset Task) + (o.started.flatten : Multiset Task) :=
    fun hmem => by cases hleaves _ hmem
  have htask : .give k batch ≠ task := by
    rintro rfl
    cases hq
  rw [Multiset.mem_add, or_iff_right hnext, Multiset.mem_cons, or_iff_right htask]

theorem inHand_of_elsewhere {e : Entry} (hchecks : e.checks n = [])
    (hno : ∀ k batch, .delivered k batch ∉ e.effects) :
    inHand (moments es n ++ e.shows n) = inHand (moments es n) := by
  refine inHand_still fun m hm => ?_
  rcases mem_shows.mp hm with ⟨d, hd, _⟩ | ⟨_, _, rfl⟩ | ⟨k, batch, hk, _⟩
  · rw [hchecks] at hd
    cases hd
  · rfl
  · exact absurd hk (hno k batch)

theorem AtConsumer.step (ho : c.exec x task = some o) (h : AtConsumer es c (task ::ₘ others) n) :
    AtConsumer (es ++ [⟨move, c, task, o.effects, o.connection⟩]) o.connection
      ((o.next : Multiset Task) + (o.started.flatten : Multiset Task) + others) n := by
  have hone := callers_step ho h.one
  cases calls_of_exec ho with
  | @goes k batch hidle hrun =>
    have hothers := h.others_quiet (Or.inr hidle)
    have hbefore : inHand (moments es n) = none :=
      h.idle fun j b hmem => by cases (give_mem_cons hothers).mp hmem
    obtain ⟨m, hm⟩ := drainAttempt_of_runs hrun
    refine ⟨hone, fun j b hmem => ?_, fun hno => absurd (by simp) (hno k batch)⟩
    obtain ⟨rfl, -⟩ : j = k ∧ b = batch := by simpa using (give_mem_add hothers).mp hmem
    refine ⟨m, hm, ?_⟩
    rw [inHand_moments]
    by_cases hn : m = n
    · simp [Entry.shows, Entry.checks, hm, hn, hrun, Moment.hand]
    · simp [Entry.shows, Entry.checks, hm, hn, hbefore]
  | @calls k batch =>
    have hothers := h.others_quiet (Or.inl rfl)
    obtain ⟨m, hm, hhand⟩ := h.hand k batch (Multiset.mem_cons_self _ _)
    refine ⟨hone, fun j b hmem => ?_, fun _ => ?_⟩
    · exact absurd ((give_mem_add hothers).mp hmem) (by simp [stepGive])
    · rw [inHand_moments]
      by_cases hn : m = n
      · simp [Entry.shows, Entry.checks, stepGive, momentOf, hm, hn, Moment.hand]
      · rw [if_neg hn] at hhand
        simp [Entry.shows, Entry.checks, stepGive, momentOf, hm, hn, hhand]
  | comesBack =>
    have hothers := h.others_quiet (Or.inl rfl)
    have hbefore : inHand (moments es n) = none :=
      h.idle fun j b hmem => by cases (give_mem_cons hothers).mp hmem
    refine ⟨hone, fun j b hmem => ?_, fun _ => ?_⟩
    · exact absurd ((give_mem_add hothers).mp hmem) (by simp)
    · rw [inHand_moments]
      exact (List.append_nil _).symm ▸ hbefore
  | elsewhere hq hstop hsame hno hleaves =>
    have hgive := give_mem_elsewhere others hq hleaves
    refine ⟨hone, fun k batch hmem => ?_, fun hnone => ?_⟩ <;>
      rw [inHand_moments, inHand_of_elsewhere (checks_of_stopped hstop) hno]
    · obtain ⟨m, hm, hhand⟩ := h.hand k batch ((hgive k batch).mp hmem)
      exact ⟨m, (exec_turn ho).drain_attempt_stays hm, hhand⟩
    · exact h.idle fun k batch hmem => hnone k batch ((hgive k batch).mpr hmem)

end AtConsumer

/-! ## Any moves -/

section Moves

variable {device : DeviceInfo} {config : ConnectionConfig} {prober : Prober}

theorem Introduced.mono {before after : List Moment} (h : Introduced before) :
    Introduced (before ++ after) :=
  h.imp (List.mem_append_left _) (List.mem_append_left _)

/-- Whoever brings an attempt on its way, it was told to be connecting, unless it had to wait for
its grant. -/
theorem introduced_of_drives {moves : List Move} {move : Move} {e : Entry} {m' : Machine} {n : Nat}
    (h : (History.of (.new device config prober) moves).machine.move move = some (e, m'))
    (hd : e.task.drives = some n) :
    Introduced (moments (History.of (.new device config prober) moves).entries n) := by
  have htraced := traced_of_moves device config prober moves
  by_cases hw : .waits ∈ moments (History.of (.new device config prober) moves).entries n
  · exact Or.inl hw
  · right
    have hnone : .notify n .connecting ∉
        (History.of (.new device config prober) moves).machine.pending := by
      intro hn
      have htwo := two_drivers h (introducing_of_moves _ moves) hd hn
      have hone := htraced.alone n hw
      omega
    have howed : (History.of (.new device config prober) moves).owed n .connecting = 0 := by
      refine Multiset.countP_eq_zero.mpr fun t ht ho => hnone ?_
      cases t <;> simp only [Task.owes, Bool.false_eq_true] at ho
      case notify k notice =>
        rw [Bool.and_eq_true, beq_iff_eq, beq_iff_eq] at ho
        obtain ⟨rfl, hs⟩ := ho
        cases notice <;> first | exact ht | cases hs
    have hbegun : 1 ≤ n ∧
        n ≤ (History.of (.new device config prober) moves).machine.connection.session.attempt := by
      obtain ⟨ho, rfl, _, _, hsource⟩ := makes_of_move h
      rcases hsource with hp | ⟨_, hb⟩
      · exact htraced.early _ (by rw [hp]; exact Multiset.mem_cons_self _ _) n hd
      · rw [drives_of_begins hb] at hd
        cases hd
    have hsum := told_add_owed (.new device config prober) moves n .connecting
    rw [howed, (htraced.tally n).begun, if_pos hbegun] at hsum
    rw [mem_told]
    unfold History.told History.effects at hsum
    omega

/-- What is known of the drains of an attempt from what happened to it. -/
structure Drained (es : List Entry) (c : Connection) (n : Nat) : Prop where
  introduced : ∀ k, c.drainAttempt k = some n → Introduced (moments es n)
  stopped : ∀ k, .stopped k ∈ moments es n → k < c.drains.length ∧ c.drainRuns k = false

theorem drained_of_moves (moves : List Move) (n : Nat) :
    Drained (History.of (.new device config prober) moves).entries
      (History.of (.new device config prober) moves).machine.connection n := by
  refine History.moves_induction (I := fun h => Drained h.entries h.machine.connection n)
    ⟨fun k hk => (by cases hk), fun k hk => (by cases hk)⟩ ?_ moves
  intro moves move e m' ih hm
  obtain ⟨ho, rfl, hc, _, _⟩ := makes_of_move hm
  have hturn := exec_turn ho
  rw [hc]
  refine ⟨?_, ?_⟩
  · intro k hk
    rw [moments_snoc]
    rcases hturn.drain_attempt k with he | ⟨m, rfl, _, he⟩
    · exact (ih.introduced k (he ▸ hk)).mono
    · rw [he] at hk
      exact (introduced_of_drives hm (hk ▸ rfl)).mono
  · intro k hk
    rw [moments_snoc, Entry.moments, List.mem_append, List.mem_append, List.mem_append] at hk
    rcases hk with hk | hk | hk | hk
    · obtain ⟨hlt, hrun⟩ := ih.stopped k hk
      have hstay := hturn.drains_stay hlt
      refine ⟨hstay.1, eq_false_of_ne_true fun hno => ?_⟩
      rw [hstay.2 hno] at hrun
      cases hrun
    · rcases mem_shows.mp hk with ⟨_, _, he⟩ | ⟨_, _, he⟩ | ⟨_, _, _, _, he⟩ <;> cases he
    · obtain ⟨d, hd, he⟩ := List.mem_map.mp hk
      cases he
      simp only [Entry.stops, List.mem_filter, List.mem_range, decide_eq_true_eq] at hd
      exact ⟨(hturn.drains_stay hd.1).1, hd.2.2.2⟩
    · rcases eq_of_mem_change hk with ⟨_, he⟩ | he <;> cases he

theorem atConsumer_of_moves (moves : List Move) (n : Nat) :
    AtConsumer (History.of (.new device config prober) moves).entries
      (History.of (.new device config prober) moves).machine.connection
      (History.of (.new device config prober) moves).machine.pending n := by
  refine History.of_induction (I := fun es c P => AtConsumer es c P n)
    ⟨rfl, by simp, fun _ => rfl⟩ ?_ moves
  intro es c others task move x o ho hsource
  rcases hsource with h | ⟨h, hb⟩
  · exact h.step ho
  · exact (h.begin hb).step ho

end Moves

/-! ## One step of an orderly attempt -/

section OneStep

variable {es : List Entry} {c : Connection} {P others : Multiset Task} {task : Task} {o : Outcome}
  {move : Move} {x : Outside} {n : Nat}

/-- No callback is owed twice. -/
theorem Traced.changes_le (h : Traced es c P) (n : Nat) (s : ConnectionState) :
    changes es n s ≤ 1 := by
  have hbegun := (h.tally n).begun
  have hended := (h.tally n).ended
  have hwaiting := changes_waiting es n
  cases s with
  | connected => exact (h.tally n).up_le
  | awaitingPermission => omega
  | connecting => split at hbegun <;> omega
  | disconnected | failed => split at hended <;> omega

/-- What a step shows of an attempt is allowed behind what happened to it so far. -/
theorem Orderly.append_shows (h : Orderly (moments es n)) (ht : Traced es c P) (hg : Guarded c P)
    (hr : ∀ k, RunsOwned c P k) (hd : Drained es c n) (hconsumer : AtConsumer es c P n)
    (hsum : ∀ s, (es.flatMap (·.effects)).countP (·.tells n s) + P.countP (fun t => t.owes n s) =
      changes es n s)
    (ho : c.exec x task = some o)
    (hsource : P = task ::ₘ others ∨ P = others ∧ Begins c others move task) :
    Orderly (moments es n ++ Entry.shows ⟨move, c, task, o.effects, o.connection⟩ n) := by
  rcases shows_cases ho move n with hnil | ⟨notice, rfl, htold⟩ | ⟨k, hidle, hrun, hk, hchecked⟩ |
    ⟨k, batch, rfl, hk, hgiven⟩
  · rw [hnil, List.append_nil]
    exact h
  · rw [htold]
    refine .snoc h ?_
    have hpending : P = .notify n notice ::ₘ others := by
      rcases hsource with hp | ⟨_, hb⟩
      · exact hp
      · cases hb
    have howed : 1 ≤ P.countP (fun t => t.owes n notice.state) := by
      rw [hpending, Multiset.countP_cons]
      simp [Task.owes]
    have hs := hsum notice.state
    have hle := ht.changes_le n notice.state
    refine ⟨mem_changed.mpr (by omega), fun hmem => ?_⟩
    have := mem_told.mp hmem
    omega
  · rw [hchecked]
    refine .snoc h ⟨?_, hd.introduced k hk, ?_, ?_, ?_⟩
    · rw [mem_changed, (ht.tally n).begun, if_pos (ht.begun k n hk)]
      exact Nat.one_pos
    · intro hs
      rw [(hd.stopped k hs).2] at hrun
      cases hrun
    · intro hup hdown
      rw [mem_changed] at hup hdown
      have := ht.runs_while_up hg (hr k) hrun hk hup
      omega
    · have hnone := hconsumer.one
      rw [hidle] at hnone
      exact hconsumer.idle (no_give hnone)
  · rw [hgiven]
    refine .snoc h ?_
    have hmem : .give k batch ∈ P := by
      rcases hsource with hp | ⟨_, hb⟩
      · rw [hp]
        exact Multiset.mem_cons_self _ _
      · cases hb
    obtain ⟨m, hm, hhand⟩ := hconsumer.hand k batch hmem
    rw [hk, Option.some.injEq] at hm
    rw [if_pos hm.symm] at hhand
    exact hhand

theorem Orderly.append_stopped {ms : List Moment} (h : Orderly ms) (ks : List Nat) :
    Orderly (ms ++ ks.map .stopped) := by
  induction ks generalizing ms with
  | nil => rwa [List.map_nil, List.append_nil]
  | cons k ks ih =>
    rw [List.map_cons, List.append_cons]
    exact ih (.snoc h trivial)

/-- The change that a step makes is allowed behind what happened to the attempt so far. -/
theorem Orderly.append_change {ms : List Moment} {e : Entry} (h : Orderly ms)
    (hch : Keeps e.before.session e.after.session ∨ Change e.before.session e.task e.after.session)
    (ht : Tally es e.before.session n) (hsame : ∀ r, .changed r ∈ ms ↔ 0 < changes es n r)
    (hdrives : e.task.drives = some n → Introduced ms) : Orderly (ms ++ e.change n) := by
  unfold Entry.change
  split
  · rename_i m s hdue
    split
    · rename_i hm
      subst hm
      have hch : Change e.before.session e.task e.after.session := by
        rcases hch with hk | hch
        · rw [due_same _ _ hk] at hdue
          cases hdue
        · exact hch
      have hallowed : Allowed ms (.changed s) := by
        refine ⟨fun r hr => follows_of_change ht hch hdue ((hsame r).mp hr), ?_, ?_⟩
        · exact (begun_of_change ht hch hdue).imp_right (hsame _).mpr
        · exact fun hs => hdrives (drives_of_change hch hdue hs)
      rw [List.append_cons]
      split
      · exact .snoc (.snoc h hallowed) trivial
      · rw [List.append_nil]
        exact .snoc h hallowed
    · rw [List.append_nil]
      exact h
  · rw [List.append_nil]
    exact h

end OneStep

theorem orderly_of_moves (device : DeviceInfo) (config : ConnectionConfig) (prober : Prober)
    (moves : List Move) (n : Nat) :
    Orderly (moments (History.of (.new device config prober) moves).entries n) := by
  refine History.moves_induction (I := fun h => Orderly (moments h.entries n)) .nil ?_ moves
  intro moves move e m' ih hm
  have hintroduced : e.task.drives = some n →
      Introduced (moments (History.of (.new device config prober) moves).entries n) :=
    introduced_of_drives hm
  obtain ⟨ho, rfl, hc, _, hsource⟩ := makes_of_move hm
  have htraced := traced_of_moves device config prober moves
  have hshown := ih.append_shows htraced (guarded_of_moves device config prober moves)
    (drains_of_moves device config prober moves) (drained_of_moves moves n)
    (atConsumer_of_moves moves n)
    (told_add_owed (.new device config prober) moves n) ho hsource
  rw [moments_snoc, Entry.moments, ← List.append_assoc, ← List.append_assoc]
  refine (hshown.append_stopped _).append_change (exec_turn ho).change (htraced.tally n) ?_ ?_
  · intro r
    simp only [← mem_changed, List.mem_append, mem_shows, List.mem_map, reduceCtorEq, and_false,
      exists_false, or_false]
  · intro hd
    exact (hintroduced hd).mono.mono

/-! ## The law -/

/-- How the callbacks of attempt `n` come. -/
structure InOrder (h : History) (n : Nat) : Prop where
  orderly : Orderly (moments h.entries n)
  /-- The changes of the session come in this order. -/
  changes : ∀ a b, [.changed a, .changed b].Sublist (moments h.entries n) → Follows a b
  /-- A callback comes behind the change that it tells of, and once. -/
  told : ∀ s before after, moments h.entries n = before ++ .told s :: after →
    .changed s ∈ before ∧ .told s ∉ before ∧ .told s ∉ after
  /-- An attempt that failed is told neither to be connected nor to be disconnected. -/
  one_end : .told .failed ∈ moments h.entries n → .told .connected ∉ moments h.entries n ∧
    .told .disconnected ∉ moments h.entries n
  /-- Each change is told, or some thread has yet to tell of it. -/
  owed : ∀ s, .changed s ∈ moments h.entries n → .told s ∈ moments h.entries n ∨ 0 < h.owed n s
  /-- A callback comes before one that it follows only if the session had changed for both. -/
  overtakes : ∀ a b, [.told a, .told b].Sublist (moments h.entries n) → Follows a b ∨
    [.changed b, .changed a, .told a, .told b].Sublist (moments h.entries n)
  /-- Where access was held, to be connecting is told first, but for the end by a call to
  disconnect, an event or a read error. -/
  introduced : .waits ∉ moments h.entries n →
    ¬ [.told .connected, .told .connecting].Sublist (moments h.entries n) ∧
      ¬ [.told .failed, .told .connecting].Sublist (moments h.entries n) ∧
      ∀ k, ¬ [.given k, .told .connecting].Sublist (moments h.entries n)
  /-- A batch comes behind a check of its drain, one behind each. -/
  checked : ∀ k before after, moments h.entries n = before ++ .given k :: after →
    inHand before = some k
  /-- A drain that was stopped does not pass its check, and what it had checked for before is the
  one batch that it may still give. -/
  stopped : ∀ k before after, moments h.entries n = before ++ .stopped k :: after →
    .checked k ∉ after ∧ after.count (.given k) ≤ if inHand before = some k then 1 else 0
  /-- It is the same with a drain of an attempt that came up, once the end of the attempt was
  told. -/
  batches : .changed .connected ∈ moments h.entries n → ∀ s, s = .disconnected ∨ s = .failed →
    ∀ k before after, moments h.entries n = before ++ .told s :: after →
      .checked k ∉ after ∧ after.count (.given k) ≤ if inHand before = some k then 1 else 0
  /-- Nothing is left to be told once the last handle was let go. -/
  let_go : h.machine.connection.dropped = true → ∀ s, h.owed n s = 0

/-- Where a drain does not check behind a moment, it gives the batch that it had in hand there and
no other. -/
theorem Orderly.gives_one_more {ms before after : List Moment} {m : Moment} {d : Nat}
    (h : Orderly ms) (he : ms = before ++ m :: after) (hm : m.isBatch = false)
    (hno : .checked d ∉ after) :
    .checked d ∉ after ∧ after.count (.given d) ≤ if inHand before = some d then 1 else 0 := by
  rw [he, ← List.singleton_append, ← List.append_assoc] at h
  have hone := h.given_behind hno
  rw [inHand_still (List.forall_mem_singleton.mpr hm)] at hone
  exact ⟨hno, hone⟩

theorem inOrder_of_orderly {h : History} {n : Nat} (ho : Orderly (moments h.entries n))
    (hsum : ∀ s, h.told n s + h.owed n s = changes h.entries n s)
    (hgone : h.machine.connection.dropped = true → ∀ s, h.owed n s = 0) : InOrder h n := by
  refine ⟨ho, fun a b => ho.follows, ?_, ?_, ?_, fun a b => ho.overtakes, ?_,
    fun k before after => ho.given_at, ?_, ?_, hgone⟩
  · intro s before after he
    obtain ⟨hc, hb⟩ := ho.told_at he
    refine ⟨hc, hb, fun ha => ho.once (s := s) ?_⟩
    rw [he]
    exact pair_behind ha
  · intro hf
    have hapart : ∀ s, s = .connected ∨ s = .disconnected → .told s ∉ moments h.entries n := by
      intro s hs ht
      have hne : Moment.changed .failed ≠ .changed s := by rcases hs with rfl | rfl <;> simp
      rcases pair_of_mem (ho.changed_of_told hf) (ho.changed_of_told ht) hne with hp | hp
      · cases ho.follows hp
      · have hfollows := ho.follows hp
        rcases hs with rfl | rfl <;> cases hfollows
    exact ⟨hapart _ (Or.inl rfl), hapart _ (Or.inr rfl)⟩
  · intro s hs
    have hc := mem_changed.mp hs
    rw [← hsum s] at hc
    by_cases ht : 0 < h.told n s
    · exact Or.inl (mem_told.mpr ht)
    · exact Or.inr (by omega)
  · intro hw
    exact ⟨ho.introduced (d := 0) hw (Or.inl rfl), ho.introduced (d := 0) hw (Or.inr (Or.inl rfl)),
      fun k => ho.introduced hw (Or.inr (Or.inr rfl))⟩
  · intro k before after he
    refine ho.gives_one_more he (by rfl) fun hk => ?_
    obtain ⟨past, rest, hpast, hs⟩ := split_of_pair (pair_behind hk)
    exact (ho.checked_at (he.trans hpast)).2.1 hs
  · exact fun hup s hs k before after he => ho.gives_one_more he (by rfl) fun hk =>
      ho.checked_while_up hup hs (he ▸ pair_behind hk)

/-- The callbacks of an attempt come in the order of its changes, whatever moves a connection makes
and whichever threads are faster, but for a callback that had not been made yet when the session
changed again, and for the one batch that a drain had checked for when it was stopped. -/
theorem callbacks_come_in_the_order_of_the_changes (device : DeviceInfo)
    (config : ConnectionConfig) (prober : Prober) (moves : List Move) (n : Nat) :
    InOrder (History.of (.new device config prober) moves) n := by
  refine inOrder_of_orderly (orderly_of_moves device config prober moves n)
    (told_add_owed (.new device config prober) moves n) ?_
  intro hd s
  have hrest := ((guarded_of_moves device config prober moves).gone hd).rest
  refine Multiset.countP_eq_zero.mpr fun t ht ho => ?_
  have hr := hrest t ht
  cases t <;> first | cases ho | cases hr

/-- A callback may be overtaken by one that a later change calls for, and by batches. In the first
run the end of the attempt is told before its beginning, in the second before it is told to be
connected; in the third a batch comes first. In the fourth the drain has checked that it may go on
when a call to disconnect stops it, and its batch comes behind the end of the attempt. In the fifth
the last handle is let go, and nobody is told that the attempt is over. -/
theorem callbacks_may_be_overtaken :
    let x : Outside :=
      { subscribe := .ok 1, permitted := true, requestPermission := .ok ()
        openPort := fun _ => .ok (), packetSize := fun _ => 64
        setParameters := fun _ _ => .ok (), write := fun _ data => .ok data.length
        read := fun _ _ => some (.ok [7]) }
    let steps (thread count : Nat) : List Move := List.replicate count (.step thread x)
    let run (moves : List Move) : History :=
      .of (.new ⟨"usb", Vendor.ftdi, 0x6001, none, none⟩ { ringCapacity := 4 } {})
        ([.call .connect x] ++ moves)
    callbacks (run (steps 0 1 ++ [.call .disconnect x] ++ steps 1 2 ++ steps 0 1)).entries 1 =
        [.told .disconnected, .told .connecting] ∧
      callbacks (run (steps 0 12 ++ [.call .disconnect x] ++ steps 3 5 ++ steps 0 1)).entries 1 =
        [.told .connecting, .told .disconnected, .told .connected] ∧
      callbacks (run (steps 0 11 ++ steps 1 7 ++ steps 2 3 ++ steps 0 2)).entries 1 =
        [.told .connecting, .given 0, .told .connected] ∧
      callbacks (run (steps 0 14 ++ steps 1 7 ++ steps 2 2 ++ [.call .disconnect x] ++ steps 3 5 ++
          steps 2 1)).entries 1 =
        [.told .connecting, .told .connected, .told .disconnected, .given 0] ∧
      callbacks (run (steps 0 14 ++ [.call .drop x] ++ steps 3 5)).entries 1 =
        [.told .connecting, .told .connected] ∧
      (run (steps 0 14 ++ [.call .drop x] ++ steps 3 5)).machine.isSettled = true := by
  decide +kernel

end SerialLink.Connection
