-- The drains of successive attempts. A drain that was stopped is not waited for:
-- it may still hold a batch, or be with the consumer, while the drains of later
-- attempts go on over the same ring. Whoever takes the next step, what the
-- consumer is given for an attempt is the beginning of what was put during it.
import SerialLink.Proofs.Connection.Passage

namespace SerialLink.Connection

/-! ## A ring and its drains -/

/-- A connection on which attempt follows attempt, with what the drains made so far have yet to do,
oldest first. -/
structure Relay where
  connection : Connection
  attempt : Nat := 0
  threads : List (List Task) := []
  /-- The chunks put so far that fitted, each with the attempt during which it came. -/
  puts : List (Nat × Bytes) := []
  /-- The batches taken out of the ring so far, each with the drain. -/
  taken : List (Nat × Bytes) := []
  /-- The batches that the consumer was called with so far, each with the drain. -/
  given : List (Nat × Bytes) := []

/-- What happens next. -/
inductive Event
  /-- The next attempt begins. -/
  | begin
  | put (bytes : Bytes)
  /-- A drain is made for the attempt. -/
  | spawn
  | stop (drain : Nat)
  /-- A step of the thread of this drain. -/
  | step (drain : Nat)

namespace Relay

/-- What an event leaves. Attempts come one after another: the next one begins, with an empty ring,
once no drain runs, and has one drain at most. A thread that is gone or waits is passed over. -/
def step (r : Relay) (x : Outside) : Event → Relay
  | .begin =>
    if r.connection.drains.any (·.running) then r
    else
      match r.connection.exec x .clearRing with
      | none => r
      | some o => { r with connection := o.connection, attempt := r.attempt + 1 }
  | .put bytes =>
    match r.connection.exec x (.enqueue bytes) with
    | none => r
    | some o =>
      let fit := (passages r.connection (.enqueue bytes) o).filterMap Passage.fit
      { r with connection := o.connection, puts := r.puts ++ fit.map (r.attempt, ·) }
  | .spawn =>
    if r.connection.drains.any (fun d => d.running || d.attempt == r.attempt) then r
    else
      match r.connection.exec x (.startDrain r.attempt) with
      | none => r
      | some o => { r with connection := o.connection, threads := r.threads ++ o.started }
  | .stop k => { r with connection := r.connection.stopDrain k }
  | .step k =>
    match r.threads[k]? with
    | some (task :: rest) =>
      match r.connection.execWhole x task with
      | none => r
      | some o =>
        let ps := passages r.connection task o
        { r with
          connection := o.connection
          threads := r.threads.set k (o.next ++ rest)
          taken := r.taken ++ (ps.filterMap Passage.batch).map (k, ·)
          given := r.given ++ (ps.filterMap Passage.delivery).map (k, ·) }
    | _ => r

/-- What some events leave, each with what the outside answers to it. -/
def after (r : Relay) (events : List (Outside × Event)) : Relay :=
  events.foldl (fun r event => r.step event.1 event.2) r

/-- The attempt that a drain was made for. -/
def attemptOf (r : Relay) (drain : Nat) : Option Nat :=
  r.connection.drains[drain]?.map (·.attempt)

/-- The drain is with the consumer. -/
def Calling (r : Relay) (drain : Nat) : Prop :=
  ∃ rest, r.threads[drain]? = some (.delivered drain :: rest)

end Relay

/-- The bytes that a log has under the numbers that `mine` picks, in order. -/
def bytesOf (log : List (Nat × Bytes)) (mine : Nat → Bool) : Bytes :=
  (log.filter fun entry => mine entry.1).flatMap (·.2)

namespace Relay

/-- The bytes put during an attempt. -/
def putIn (r : Relay) (attempt : Nat) : Bytes := bytesOf r.puts (· == attempt)

/-- The bytes taken out of the ring for an attempt. -/
def takenFor (r : Relay) (attempt : Nat) : Bytes :=
  bytesOf r.taken fun drain => r.attemptOf drain == some attempt

/-- The bytes that the consumer was given for an attempt. -/
def givenFor (r : Relay) (attempt : Nat) : Bytes :=
  bytesOf r.given fun drain => r.attemptOf drain == some attempt

end Relay

/-! ## The bytes of a log -/

section Log

variable {log more : List (Nat × Bytes)} {mine other : Nat → Bool}

theorem bytesOf_append (log more : List (Nat × Bytes)) (mine : Nat → Bool) :
    bytesOf (log ++ more) mine = bytesOf log mine ++ bytesOf more mine := by
  unfold bytesOf
  rw [List.filter_append, List.flatMap_append]

theorem bytesOf_map (n : Nat) (chunks : List Bytes) (mine : Nat → Bool) :
    bytesOf (chunks.map (n, ·)) mine = if mine n then chunks.flatten else [] := by
  induction chunks with
  | nil => cases mine n <;> rfl
  | cons chunk chunks ih =>
    rw [List.map_cons, ← List.singleton_append, bytesOf_append, ih]
    by_cases hn : mine n = true
    · simp [bytesOf, hn]
    · simp [bytesOf, hn]

theorem bytesOf_congr (h : ∀ entry ∈ log, mine entry.1 = other entry.1) :
    bytesOf log mine = bytesOf log other := by
  unfold bytesOf
  rw [List.filter_congr h]

theorem bytesOf_none (h : ∀ entry ∈ log, mine entry.1 = false) : bytesOf log mine = [] := by
  unfold bytesOf
  rw [List.filter_eq_nil_iff.mpr fun entry hmem => by simp [h entry hmem]]
  rfl

end Log

/-! ## One drain -/

/-- Where the thread of a drain may stand, and what it holds. -/
inductive Standing (c : Connection) (k : Nat) : List Task → Bytes → Prop
  | taking : Standing c k [.take k] []
  | holding {batch : Bytes} : batch ≠ [] → Standing c k [.deliver k batch] batch
  | calling : c.delivering = some k → Standing c k [.delivered k, .pause k] []
  | pausing : Standing c k [.pause k] []
  | gone : c.drainRuns k = false → Standing c k [] []

/-- The steps of the thread of a drain: where it stands, what is left, where it stands then, and
what it took and gave. -/
inductive Round (c : Connection) (k : Nat) :
    List Task → Connection → List Task → List Bytes → List Bytes → Prop
  | take : c.drainRuns k = true → c.ring.contents ≠ [] →
      Round c k [.take k] { c with ring := c.ring.drain.2 } [.deliver k c.ring.contents]
        [c.ring.contents] []
  | takeNothing : c.drainRuns k = true → c.ring.contents = [] →
      Round c k [.take k] { c with ring := c.ring.drain.2 } [.pause k] [[]] []
  | stopAtTake : c.drainRuns k = false → Round c k [.take k] c [] [] []
  | give {batch : Bytes} : c.drainRuns k = true → c.delivering = none →
      Round c k [.deliver k batch] { c with delivering := some k } [.delivered k, .pause k] []
        [batch]
  | drop {batch : Bytes} : c.drainRuns k = false → Round c k [.deliver k batch] c [] [] []
  | comeBack : Round c k [.delivered k, .pause k] { c with delivering := none } [.pause k] [] []
  | again : Round c k [.pause k] c [.take k] [] []

theorem round_of_exec {c : Connection} {x : Outside} {k : Nat} {task : Task} {rest : List Task}
    {hand : Bytes} {o : Outcome} (hs : Standing c k (task :: rest) hand)
    (h : c.execWhole x task = some o) :
    Round c k (task :: rest) o.connection (o.next ++ rest)
      ((passages c task o).filterMap Passage.batch)
      ((passages c task o).filterMap Passage.delivery) := by
  cases hs with
  | taking =>
    replace h := exec_of_whole h fun _ _ he => by cases he
    simp only [exec, Option.some.injEq] at h
    subst h
    rw [passages_take]
    by_cases hrun : c.drainRuns k = true
    · rw [if_pos hrun]
      by_cases hempty : c.ring.contents = []
      · have ho : c.stepTake k =
            { connection := { c with ring := c.ring.drain.2 }, next := [.pause k] } := by
          simp [stepTake, hrun, Ring.drain, hempty]
        rw [ho, hempty]
        exact .takeNothing hrun hempty
      · have ho : c.stepTake k = { connection := { c with ring := c.ring.drain.2 }
                                   next := [.deliver k c.ring.contents] } := by
          simp [stepTake, hrun, Ring.drain, hempty]
        rw [ho]
        exact .take hrun hempty
    · have ho : c.stepTake k = { connection := c } := by simp [stepTake, hrun]
      rw [if_neg hrun, ho]
      exact .stopAtTake (eq_false_of_ne_true hrun)
  | holding =>
    rcases execWhole_cases h with ⟨h, hstop⟩ | ⟨_, _, he, hidle, hrun, rfl⟩
    · have hrun := hstop _ _ rfl
      rcases stepDeliver_eq h with ⟨hno, _⟩ | ⟨_, rfl⟩
      · rw [hrun] at hno
        cases hno
      · simp only [passages, Task.passages, hrun]
        exact .drop hrun
    · cases he
      simp only [passages, Task.passages, hrun]
      exact .give hrun hidle
  | calling =>
    replace h := exec_of_whole h fun _ _ he => by cases he
    rw [passages_of_nothing rfl (exec_sameBytes h rfl)]
    cases h
    exact .comeBack
  | pausing =>
    replace h := exec_of_whole h fun _ _ he => by cases he
    rw [passages_of_nothing rfl (exec_sameBytes h rfl)]
    cases h
    exact .again

theorem Standing.stay {c d : Connection} {k : Nat} {ts : List Task} {hand : Bytes}
    (h : Standing c k ts hand) (hd : c.delivering = some k → d.delivering = some k)
    (hr : d.drainRuns k = true → c.drainRuns k = true) : Standing d k ts hand := by
  cases h with
  | taking => exact .taking
  | holding hb => exact .holding hb
  | calling hc => exact .calling (hd hc)
  | pausing => exact .pausing
  | gone hno =>
    refine .gone (eq_false_of_ne_true fun hrun => ?_)
    rw [hr hrun] at hno
    cases hno

namespace Relay

/-! ## What every event keeps -/

/-- The bytes that a drain took out of the ring, and those that the consumer was given by it. -/
def tookBy (r : Relay) (k : Nat) : Bytes := bytesOf r.taken (· == k)
def gaveBy (r : Relay) (k : Nat) : Bytes := bytesOf r.given (· == k)

/-- What is known of a drain from where its thread stands: all that it took it gave on, but for what
it holds, or what it dropped before it went. -/
def Kept (r : Relay) (k : Nat) (ts : List Task) : Prop :=
  ∃ hand, Standing r.connection k ts hand ∧
    (ts = [] ∧ r.gaveBy k <+: r.tookBy k ∨ r.gaveBy k ++ hand = r.tookBy k)

/-- The drains made so far. Each is for a later attempt than those before it, and only one for the
present attempt may run. -/
structure Roster (r : Relay) : Prop where
  threads : r.threads.length = r.connection.drains.length
  rising : ∀ {j k n m}, r.attemptOf j = some n → r.attemptOf k = some m → j < k → n < m
  reached : ∀ {k n}, r.attemptOf k = some n → n ≤ r.attempt
  running : ∀ {k}, r.connection.drainRuns k = true → r.attemptOf k = some r.attempt

/-- Where their threads stand. -/
structure Posts (r : Relay) : Prop where
  kept : ∀ {k ts}, r.threads[k]? = some ts → r.Kept k ts
  caller : ∀ {k}, r.connection.delivering = some k → r.threads[k]? = some [.delivered k, .pause k]

/-- What was put, taken and given. -/
structure Books (r : Relay) : Prop where
  ring : r.connection.ring.Sound
  takers : ∀ entry ∈ r.taken, entry.1 < r.connection.drains.length
  givers : ∀ entry ∈ r.given, entry.1 < r.connection.drains.length
  arrived : ∀ entry ∈ r.puts, entry.1 ≤ r.attempt
  ordered : r.given.Pairwise fun g g' => g.1 ≤ g'.1
  nonempty : ∀ g ∈ r.given, g.2 ≠ []
  past : ∀ n, r.takenFor n <+: r.putIn n
  /-- What was put during this attempt was taken for it, or is in the ring. -/
  current : r.takenFor r.attempt ++ r.connection.ring.contents = r.putIn r.attempt

section Roster

variable {r r' : Relay} {j k n : Nat}

theorem attemptOf_isSome : (r.attemptOf k).isSome ↔ k < r.connection.drains.length := by
  unfold attemptOf
  rw [Option.isSome_map, isSome_getElem?]

/-- A drain that runs is the last one made. -/
theorem Roster.last (h : Roster r) (hrun : r.connection.drainRuns k = true)
    (hj : j < r.connection.drains.length) : j ≤ k := by
  obtain ⟨n, hn⟩ := Option.isSome_iff_exists.mp (attemptOf_isSome.mpr hj)
  by_contra hlt
  have hlater := h.rising (h.running hrun) hn (Nat.lt_of_not_le hlt)
  have hreached := h.reached hn
  omega

theorem Roster.same (h : Roster r) (hthreads : r'.threads.length = r.threads.length)
    (hlen : r'.connection.drains.length = r.connection.drains.length)
    (hof : ∀ k, r'.attemptOf k = r.attemptOf k) (hattempt : r.attempt ≤ r'.attempt)
    (hruns : ∀ k, r'.connection.drainRuns k = true →
      r.connection.drainRuns k = true ∧ r'.attempt = r.attempt) : Roster r' := by
  refine ⟨by rw [hthreads, hlen, h.threads], fun hj hk hlt => ?_, fun hk => ?_, fun {k} hrun => ?_⟩
  · rw [hof] at hj hk
    exact h.rising hj hk hlt
  · rw [hof] at hk
    exact Nat.le_trans (h.reached hk) hattempt
  · obtain ⟨hrun', he⟩ := hruns k hrun
    rw [hof, he]
    exact h.running hrun'

theorem attemptOf_manned
    (hdrains : r'.connection.drains = r.connection.drains ++ [{ attempt := r.attempt }]) (k : Nat) :
    r'.attemptOf k = if k = r.connection.drains.length then some r.attempt else r.attemptOf k := by
  unfold attemptOf
  rw [hdrains]
  rcases Nat.lt_trichotomy k r.connection.drains.length with hlt | he | hgt
  · rw [List.getElem?_append_left hlt, if_neg (Nat.ne_of_lt hlt)]
  · rw [he, List.getElem?_concat_length, if_pos rfl]
    rfl
  · rw [if_neg (Nat.ne_of_gt hgt), List.getElem?_eq_none (Nat.le_of_lt hgt), List.getElem?_eq_none]
    rw [List.length_append, List.length_singleton]
    omega

/-- A drain is made for an attempt that has none, while no other runs. -/
theorem Roster.manned (h : Roster r) (hrest : ∀ k, r.connection.drainRuns k = false)
    (hnone : ∀ k, r.attemptOf k ≠ some r.attempt)
    (hthreads : r'.threads.length = r.threads.length + 1)
    (hdrains : r'.connection.drains = r.connection.drains ++ [{ attempt := r.attempt }])
    (hruns : ∀ k, r'.connection.drainRuns k =
      if k = r.connection.drains.length then true else r.connection.drainRuns k)
    (hattempt : r'.attempt = r.attempt) : Roster r' := by
  have hlen : r'.connection.drains.length = r.connection.drains.length + 1 := by
    rw [hdrains, List.length_append, List.length_singleton]
  have hof := attemptOf_manned hdrains
  have hold : ∀ {k n}, r'.attemptOf k = some n → k = r.connection.drains.length ∧ n = r.attempt ∨
      k < r.connection.drains.length ∧ r.attemptOf k = some n ∧ n < r.attempt := by
    intro k n hk
    by_cases he : k = r.connection.drains.length
    · rw [hof, if_pos he] at hk
      exact Or.inl ⟨he, (Option.some.inj hk).symm⟩
    · rw [hof, if_neg he] at hk
      have hlt := attemptOf_isSome.mp (hk ▸ rfl : (r.attemptOf k).isSome)
      refine Or.inr ⟨hlt, hk, Nat.lt_of_le_of_ne (h.reached hk) ?_⟩
      rintro rfl
      exact hnone k hk
  refine ⟨by rw [hthreads, hlen, h.threads], fun {j k n m} hj hk hlt => ?_, fun hk => ?_,
    fun {k} hrun => ?_⟩
  · rcases hold hj with ⟨hj, -⟩ | ⟨-, hj, hn⟩ <;> rcases hold hk with ⟨hk, hm⟩ | ⟨hk', hk, -⟩
    · omega
    · omega
    · omega
    · exact h.rising hj hk hlt
  · rw [hattempt]
    rcases hold hk with ⟨-, rfl⟩ | ⟨-, -, hlt⟩
    · exact Nat.le_refl _
    · exact Nat.le_of_lt hlt
  · rw [hruns] at hrun
    split at hrun
    · rw [hof, if_pos ‹_›, hattempt]
    · rw [hrest k] at hrun
      cases hrun

end Roster

section Posts

variable {r r' : Relay} {k : Nat} {ts : List Task}

theorem Kept.stay (h : r.Kept k ts)
    (hd : r.connection.delivering = some k → r'.connection.delivering = some k)
    (hr : r'.connection.drainRuns k = true → r.connection.drainRuns k = true)
    (htook : r'.tookBy k = r.tookBy k) (hgave : r'.gaveBy k = r.gaveBy k) : r'.Kept k ts := by
  obtain ⟨hand, hs, hbytes⟩ := h
  refine ⟨hand, hs.stay hd hr, ?_⟩
  rw [htook, hgave]
  exact hbytes

theorem Posts.same (h : Posts r) (hthreads : r'.threads = r.threads)
    (hd : r'.connection.delivering = r.connection.delivering)
    (hruns : ∀ k, r'.connection.drainRuns k = true → r.connection.drainRuns k = true)
    (htaken : r'.taken = r.taken) (hgiven : r'.given = r.given) : Posts r' := by
  refine ⟨fun {k ts} hts => ?_, fun {k} hk => ?_⟩
  · rw [hthreads] at hts
    refine (h.kept hts).stay (fun hk => hd.trans hk) (hruns k) ?_ ?_
    · rw [tookBy, tookBy, htaken]
    · rw [gaveBy, gaveBy, hgiven]
  · rw [hd] at hk
    rw [hthreads]
    exact h.caller hk

/-- The thread of a new drain is about to take, and has taken nothing yet. -/
theorem Posts.manned (h : Posts r) (hb : Books r) (hr : Roster r)
    (hthreads : r'.threads = r.threads ++ [[.take r.connection.drains.length]])
    (hd : r'.connection.delivering = r.connection.delivering)
    (hruns : ∀ k, r'.connection.drainRuns k =
      if k = r.connection.drains.length then true else r.connection.drainRuns k)
    (htaken : r'.taken = r.taken) (hgiven : r'.given = r.given) : Posts r' := by
  have htook : ∀ k, r'.tookBy k = r.tookBy k := fun k => by rw [tookBy, tookBy, htaken]
  have hgave : ∀ k, r'.gaveBy k = r.gaveBy k := fun k => by rw [gaveBy, gaveBy, hgiven]
  refine ⟨fun {k ts} hts => ?_, fun {k} hk => ?_⟩
  · by_cases hk : k < r.threads.length
    · rw [hthreads, List.getElem?_append_left hk] at hts
      have hne : k ≠ r.connection.drains.length := Nat.ne_of_lt (hr.threads ▸ hk)
      exact (h.kept hts).stay (fun hk => hd.trans hk)
        (fun hrun => by rwa [hruns, if_neg hne] at hrun) (htook k) (hgave k)
    · have hnone : ∀ log : List (Nat × Bytes),
          (∀ entry ∈ log, entry.1 < r.connection.drains.length) → bytesOf log (· == k) = [] := by
        intro log hlog
        refine bytesOf_none fun entry hmem => ?_
        have := hlog entry hmem
        have := hr.threads
        rw [beq_eq_false_iff_ne]
        omega
      have he : k = r.connection.drains.length ∧ ts = [.take r.connection.drains.length] := by
        rw [hthreads, List.getElem?_append_right (Nat.le_of_not_lt hk),
          List.getElem?_singleton] at hts
        split at hts <;> cases hts
        exact ⟨by have := hr.threads; omega, rfl⟩
      obtain ⟨rfl, rfl⟩ := he
      refine ⟨[], .taking, Or.inr ?_⟩
      rw [htook, hgave, gaveBy, tookBy, hnone _ hb.givers, hnone _ hb.takers]
      rfl
  · rw [hd] at hk
    have hold := h.caller hk
    rw [hthreads, List.getElem?_append_left (List.getElem?_eq_some_iff.mp hold).1]
    exact hold

/-- The thread of one drain goes on. -/
theorem Posts.moved (h : Posts r) {ts' : List Task} {hand hand' : Bytes} {took gave : List Bytes}
    (hk : k < r.threads.length) (hthreads : r'.threads = r.threads.set k ts')
    (hdrains : r'.connection.drains = r.connection.drains)
    (htaken : r'.taken = r.taken ++ took.map (k, ·))
    (hgiven : r'.given = r.given ++ gave.map (k, ·)) (hheld : r.gaveBy k ++ hand = r.tookBy k)
    (hstand : Standing r'.connection k ts' hand')
    (hbytes : ts' = [] ∧ took = [] ∧ gave = [] ∨ gave.flatten ++ hand' = hand ++ took.flatten)
    (hothers : ∀ j, j ≠ k →
      (r'.connection.delivering = some j ↔ r.connection.delivering = some j))
    (hcaller : r'.connection.delivering = some k → ts' = [.delivered k, .pause k]) : Posts r' := by
  have htook : ∀ j, r'.tookBy j = r.tookBy j ++ if k == j then took.flatten else [] := fun j => by
    rw [tookBy, htaken, bytesOf_append, bytesOf_map, tookBy]
  have hgave : ∀ j, r'.gaveBy j = r.gaveBy j ++ if k == j then gave.flatten else [] := fun j => by
    rw [gaveBy, hgiven, bytesOf_append, bytesOf_map, gaveBy]
  refine ⟨fun {j ts} hts => ?_, fun {j} hj => ?_⟩
  · by_cases he : j = k
    · subst he
      rw [hthreads, List.getElem?_set_self hk] at hts
      obtain rfl := Option.some.inj hts
      refine ⟨hand', hstand, ?_⟩
      rw [htook, hgave, if_pos (beq_self_eq_true _), if_pos (beq_self_eq_true _), ← hheld]
      rcases hbytes with ⟨hgone, rfl, rfl⟩ | hbytes
      · exact Or.inl ⟨hgone, by simp⟩
      · exact Or.inr (by rw [List.append_assoc, hbytes, List.append_assoc])
    · rw [hthreads, List.getElem?_set_ne (Ne.symm he)] at hts
      have hne : ¬ (k == j) = true := by simpa using Ne.symm he
      exact (h.kept hts).stay (hothers j he).mpr (fun hr => drainRuns_congr hdrains j ▸ hr)
        (by rw [htook, if_neg hne, List.append_nil]) (by rw [hgave, if_neg hne, List.append_nil])
  · by_cases he : j = k
    · subst he
      rw [hthreads, List.getElem?_set_self hk, hcaller hj]
    · rw [hthreads, List.getElem?_set_ne (Ne.symm he)]
      exact h.caller ((hothers j he).mp hj)

end Posts

section Books

variable {r r' : Relay} {k n : Nat}

theorem takenFor_congr (ht : r'.taken = r.taken)
    (hof : ∀ entry ∈ r.taken, r'.attemptOf entry.1 = r.attemptOf entry.1) (n : Nat) :
    r'.takenFor n = r.takenFor n := by
  unfold takenFor
  rw [ht]
  exact bytesOf_congr fun entry hmem => by rw [hof entry hmem]

/-- What holds of the entries of a log, and of those made for one number behind them. -/
theorem forall_mem_log {P : Nat × Bytes → Prop} {log log' : List (Nat × Bytes)}
    {batches : List Bytes} (hlog : log' = log ++ batches.map (k, ·)) (h : ∀ entry ∈ log, P entry)
    (hk : ∀ batch ∈ batches, P (k, batch)) : ∀ entry ∈ log', P entry := by
  rw [hlog]
  exact List.forall_mem_append.mpr ⟨h, List.forall_mem_map.mpr hk⟩

/-- The ring is emptied for the next attempt. -/
theorem Books.cleared (h : Books r) (hring : r'.connection.ring = r.connection.ring.clear)
    (hlen : r'.connection.drains.length = r.connection.drains.length)
    (hof : ∀ k, r'.attemptOf k = r.attemptOf k) (hattempt : r'.attempt = r.attempt + 1)
    (hputs : r'.puts = r.puts) (htaken : r'.taken = r.taken) (hgiven : r'.given = r.given) :
    Books r' := by
  have htook := takenFor_congr htaken fun _ _ => hof _
  have hput : ∀ n, r'.putIn n = r.putIn n := fun n => by rw [putIn, putIn, hputs]
  have hpast : ∀ n, r'.takenFor n <+: r'.putIn n := fun n => by
    rw [htook, hput]
    exact h.past n
  refine ⟨by rw [hring]; exact Ring.sound_clear h.ring, by rw [htaken, hlen]; exact h.takers,
    by rw [hgiven, hlen]; exact h.givers, fun entry hmem => ?_, by rw [hgiven]; exact h.ordered,
    by rw [hgiven]; exact h.nonempty, hpast, ?_⟩
  · rw [hputs] at hmem
    rw [hattempt]
    exact Nat.le_succ_of_le (h.arrived entry hmem)
  · -- Nothing was put during an attempt that only begins, and so nothing taken for it.
    have hnone : r'.putIn r'.attempt = [] := bytesOf_none fun entry hmem => by
      rw [hputs] at hmem
      have := h.arrived entry hmem
      rw [hattempt, beq_eq_false_iff_ne]
      omega
    rw [hring, Ring.contents_clear h.ring, List.append_nil, hnone]
    exact List.prefix_nil.mp (hnone ▸ hpast r'.attempt)

/-- More is put to the ring, during this attempt, or nothing. -/
theorem Books.fed (h : Books r) {fit : List Bytes} (hs : r'.connection.ring.Sound)
    (hcontents : r'.connection.ring.contents = r.connection.ring.contents ++ fit.flatten)
    (hlen : r.connection.drains.length ≤ r'.connection.drains.length)
    (hof : ∀ k, k < r.connection.drains.length → r'.attemptOf k = r.attemptOf k)
    (hattempt : r'.attempt = r.attempt) (hputs : r'.puts = r.puts ++ fit.map (r.attempt, ·))
    (htaken : r'.taken = r.taken) (hgiven : r'.given = r.given) : Books r' := by
  have htook := takenFor_congr htaken fun entry hmem => hof _ (h.takers entry hmem)
  have hput : ∀ n, r'.putIn n = r.putIn n ++ if r.attempt == n then fit.flatten else [] :=
    fun n => by rw [putIn, hputs, bytesOf_append, bytesOf_map, putIn]
  refine ⟨hs, fun entry hmem => ?_, fun entry hmem => ?_, fun entry hmem => ?_,
    by rw [hgiven]; exact h.ordered, by rw [hgiven]; exact h.nonempty, fun n => ?_, ?_⟩
  · rw [htaken] at hmem
    exact Nat.lt_of_lt_of_le (h.takers entry hmem) hlen
  · rw [hgiven] at hmem
    exact Nat.lt_of_lt_of_le (h.givers entry hmem) hlen
  · rw [hattempt]
    exact forall_mem_log hputs h.arrived (fun _ _ => Nat.le_refl _) entry hmem
  · rw [htook, hput]
    exact (h.past n).trans (List.prefix_append ..)
  · rw [htook, hput, hattempt, if_pos (beq_self_eq_true _), hcontents, ← h.current,
      List.append_assoc]

theorem Books.same (h : Books r) (hring : r'.connection.ring = r.connection.ring)
    (hlen : r.connection.drains.length ≤ r'.connection.drains.length)
    (hof : ∀ k, k < r.connection.drains.length → r'.attemptOf k = r.attemptOf k)
    (hattempt : r'.attempt = r.attempt) (hputs : r'.puts = r.puts) (htaken : r'.taken = r.taken)
    (hgiven : r'.given = r.given) : Books r' := by
  have hnil : r'.puts = r.puts ++ ([] : List Bytes).map (r.attempt, ·) := by
    rw [hputs, List.map_nil, List.append_nil]
  refine h.fed (by rw [hring]; exact h.ring) ?_ hlen hof hattempt hnil htaken hgiven
  rw [hring, List.flatten_nil, List.append_nil]

/-- A drain takes for its own attempt, which is this one, and gives behind all that was given. -/
theorem Books.moved (h : Books r) {took gave : List Bytes} (hs : r'.connection.ring.Sound)
    (hcontents : took.flatten ++ r'.connection.ring.contents = r.connection.ring.contents)
    (hlen : r'.connection.drains.length = r.connection.drains.length)
    (hof : ∀ k, r'.attemptOf k = r.attemptOf k) (hattempt : r'.attempt = r.attempt)
    (hputs : r'.puts = r.puts) (htaken : r'.taken = r.taken ++ took.map (k, ·))
    (hgiven : r'.given = r.given ++ gave.map (k, ·)) (hk : k < r.connection.drains.length)
    (htook : took ≠ [] → r.attemptOf k = some r.attempt)
    (hgave : ∀ batch ∈ gave, batch ≠ [] ∧ ∀ j, j < r.connection.drains.length → j ≤ k) :
    Books r' := by
  have hput : ∀ n, r'.putIn n = r.putIn n := fun n => by rw [putIn, putIn, hputs]
  have htake : ∀ n, r'.takenFor n =
      r.takenFor n ++ if r.attemptOf k == some n then took.flatten else [] := fun n => by
    rw [takenFor, htaken, bytesOf_append, bytesOf_map, hof]
    exact congrArg (· ++ _) (bytesOf_congr fun entry _ => by rw [hof])
  have hcurrent : r'.takenFor r.attempt ++ r'.connection.ring.contents = r.putIn r.attempt := by
    rw [htake, ← h.current]
    rcases eq_or_ne took [] with rfl | hne
    · rw [List.flatten_nil, ite_self, List.append_nil]
      exact congrArg _ hcontents
    · rw [htook hne, if_pos (beq_self_eq_true _), List.append_assoc, hcontents]
  refine ⟨hs, by rw [hlen]; exact forall_mem_log htaken h.takers fun _ _ => hk,
    by rw [hlen]; exact forall_mem_log hgiven h.givers fun _ _ => hk,
    by rw [hputs, hattempt]; exact h.arrived, ?_,
    forall_mem_log hgiven h.nonempty fun batch hmem => (hgave batch hmem).1, fun n => ?_,
    by rw [hattempt, hput]; exact hcurrent⟩
  · rw [hgiven, List.pairwise_append]
    refine ⟨h.ordered, ?_, fun g hg => List.forall_mem_map.mpr fun batch hbatch => ?_⟩
    · rw [List.pairwise_map]
      exact List.pairwise_of_forall fun _ _ => Nat.le_refl k
    · exact (hgave batch hbatch).2 _ (h.givers g hg)
  · by_cases hn : n = r.attempt
    · rw [hn, hput, ← hcurrent]
      exact List.prefix_append ..
    · rw [hput, htake]
      rcases eq_or_ne took [] with rfl | hne
      · rw [List.flatten_nil, ite_self, List.append_nil]
        exact h.past n
      · rw [htook hne, if_neg (by simpa using Ne.symm hn), List.append_nil]
        exact h.past n

end Books

/-! ## One event -/

structure Good (r : Relay) : Prop where
  roster : Roster r
  posts : Posts r
  books : Books r

section Event

variable {r : Relay} {k : Nat}

theorem drainRuns_of_any {c : Connection} (h : c.drains.any (·.running) = false) (k : Nat) :
    c.drainRuns k = false := by
  unfold drainRuns
  rcases hd : c.drains[k]? with _ | d
  · rfl
  · exact eq_false_of_ne_true (List.any_eq_false.mp h d (List.mem_of_getElem? hd))

theorem good_begin (hg : Good r) (x : Outside) : Good (r.step x .begin) := by
  rw [step]
  split
  · exact hg
  · rename_i hrest
    have hidle := drainRuns_of_any (eq_false_of_ne_true hrest)
    refine ⟨hg.roster.same rfl rfl (fun _ => rfl) (Nat.le_succ _) fun k hrun => ?_,
      hg.posts.same rfl rfl (fun _ hrun => hrun) rfl rfl,
      hg.books.cleared rfl rfl (fun _ => rfl) rfl rfl rfl rfl⟩
    cases (hidle k).symm.trans hrun

theorem good_put (hg : Good r) (x : Outside) (bytes : Bytes) : Good (r.step x (.put bytes)) := by
  rw [step, exec]
  have hcarries := carries_enqueue hg.books.ring bytes
  have hnone : (passages r.connection (.enqueue bytes)
      (r.connection.stepEnqueue bytes)).filterMap Passage.batch = [] := by
    rw [passages_enqueue]
    rfl
  have hcontents := hcarries.order.symm
  rw [hnone, List.flatten_nil, List.nil_append] at hcontents
  have hsame : (r.connection.stepEnqueue bytes).connection.drains = r.connection.drains ∧
      (r.connection.stepEnqueue bytes).connection.delivering = r.connection.delivering := by
    unfold stepEnqueue
    split <;> exact ⟨rfl, rfl⟩
  obtain ⟨hdrains, hdelivering⟩ := hsame
  have hlen := congrArg List.length hdrains
  have hof : ∀ k : Nat, (r.connection.stepEnqueue bytes).connection.drains[k]?.map Drain.attempt =
      r.connection.drains[k]?.map Drain.attempt := fun k => by rw [hdrains]
  have hruns := drainRuns_congr hdrains
  exact ⟨hg.roster.same rfl hlen hof (Nat.le_refl _) fun k hrun => ⟨hruns k ▸ hrun, rfl⟩,
    hg.posts.same rfl hdelivering (fun k hrun => hruns k ▸ hrun) rfl rfl,
    hg.books.fed hcarries.sound hcontents (Nat.le_of_eq hlen.symm) (fun k _ => hof k) rfl rfl rfl
      rfl⟩

theorem good_spawn (hg : Good r) (x : Outside) : Good (r.step x .spawn) := by
  rw [step]
  split
  · exact hg
  · rename_i hrest
    rw [Bool.not_eq_true, List.any_eq_false] at hrest
    have hidle : ∀ k, r.connection.drainRuns k = false := by
      refine drainRuns_of_any (List.any_eq_false.mpr fun d hd hrun => hrest d hd ?_)
      rw [hrun, Bool.true_or]
    have hnone : ∀ k, r.attemptOf k ≠ some r.attempt := by
      intro k hk
      obtain ⟨d, hd, he⟩ := Option.map_eq_some_iff.mp hk
      refine hrest d (List.mem_of_getElem? hd) ?_
      rw [he, beq_self_eq_true, Bool.or_true]
    rw [exec, stepStartDrain]
    rcases hx : x.thread with text | ⟨⟩
    · refine ⟨hg.roster.same ?_ rfl (fun _ => rfl) (Nat.le_refl _) fun _ hrun => ⟨hrun, rfl⟩,
        hg.posts.same ?_ rfl (fun _ hrun => hrun) rfl rfl,
        hg.books.same rfl (Nat.le_refl _) (fun _ _ => rfl) rfl rfl rfl rfl⟩
      · exact congrArg List.length (List.append_nil _)
      · exact List.append_nil _
    · have hruns := drainRuns_new r.connection { attempt := r.attempt } rfl
      refine ⟨hg.roster.manned hidle hnone (List.length_append ..) rfl hruns rfl,
        hg.posts.manned hg.books hg.roster rfl rfl hruns rfl rfl, ?_⟩
      refine hg.books.same rfl ?_ (fun k hk => ?_) rfl rfl rfl rfl
      · exact Nat.le_of_lt (by simp)
      · exact congrArg (Option.map Drain.attempt) (List.getElem?_append_left hk)

theorem good_stop (hg : Good r) (x : Outside) (k : Nat) : Good (r.step x (.stop k)) := by
  rw [step]
  have hof : ∀ j : Nat, (r.connection.stopDrain k).drains[j]?.map Drain.attempt =
      r.connection.drains[j]?.map Drain.attempt := by
    intro j
    rw [stopDrain, List.getElem?_modify]
    rcases r.connection.drains[j]? with _ | d
    · rfl
    · by_cases he : k = j <;> simp [he]
  have hruns : ∀ j, (r.connection.stopDrain k).drainRuns j = true →
      r.connection.drainRuns j = true := by
    intro j hrun
    rw [drainRuns_stopDrain] at hrun
    split at hrun
    · cases hrun
    · exact hrun
  have hlen := length_stopDrain r.connection k
  exact ⟨hg.roster.same rfl hlen hof (Nat.le_refl _) fun j hrun => ⟨hruns j hrun, rfl⟩,
    hg.posts.same rfl rfl hruns rfl rfl,
    hg.books.same rfl (Nat.le_of_eq hlen.symm) (fun j _ => hof j) rfl rfl rfl rfl⟩

/-- What a round of a drain leaves of what is known of it. -/
structure Advance (c d : Connection) (k : Nat) (hand : Bytes) (ts' : List Task)
    (took gave : List Bytes) : Prop where
  ring : d.ring.Sound
  drains : d.drains = c.drains
  contents : took.flatten ++ d.ring.contents = c.ring.contents
  /-- Only a drain that runs takes or gives. -/
  runs : took ≠ [] ∨ gave ≠ [] → c.drainRuns k = true
  nonempty : ∀ batch ∈ gave, batch ≠ []
  stands : ∃ hand', Standing d k ts' hand' ∧
    (ts' = [] ∧ took = [] ∧ gave = [] ∨ gave.flatten ++ hand' = hand ++ took.flatten)
  others : ∀ j, j ≠ k → (d.delivering = some j ↔ c.delivering = some j)
  caller : d.delivering = some k → ts' = [.delivered k, .pause k]

theorem advance_of_round {c d : Connection} {ts ts' : List Task} {hand : Bytes}
    {took gave : List Bytes} (hs : c.ring.Sound) (hstand : Standing c k ts hand)
    (hcaller : c.delivering = some k → ts = [.delivered k, .pause k])
    (h : Round c k ts d ts' took gave) : Advance c d k hand ts' took gave := by
  obtain ⟨hsound, -, hempty⟩ := Ring.contents_drain hs
  have hnot : ts ≠ [.delivered k, .pause k] → c.delivering ≠ some k :=
    fun hts hk => hts (hcaller hk)
  cases h with
  | take hrun hne =>
    cases hstand
    exact ⟨hsound, rfl, by simp [hempty], fun _ => hrun, nofun,
      ⟨_, .holding hne, Or.inr (by simp)⟩, fun _ _ => Iff.rfl, fun hk => absurd hk (hnot nofun)⟩
  | takeNothing hrun hnil =>
    cases hstand
    exact ⟨hsound, rfl, by simp [hempty, hnil], fun _ => hrun, nofun,
      ⟨_, .pausing, Or.inr rfl⟩, fun _ _ => Iff.rfl, fun hk => absurd hk (hnot nofun)⟩
  | stopAtTake hno =>
    exact ⟨hs, rfl, rfl, fun h => h.elim (absurd rfl) (absurd rfl), nofun,
      ⟨_, .gone hno, Or.inl ⟨rfl, rfl, rfl⟩⟩, fun _ _ => Iff.rfl,
      fun hk => absurd hk (hnot (by cases hstand; nofun))⟩
  | give hrun hidle =>
    cases hstand with
    | holding hne =>
      refine ⟨hs, rfl, rfl, fun _ => hrun, by simpa using hne, ⟨[], .calling rfl, Or.inr (by simp)⟩,
        fun j hj => ?_, fun _ => rfl⟩
      rw [hidle]
      exact ⟨fun he => absurd (Option.some.inj he).symm hj, nofun⟩
  | drop hno =>
    exact ⟨hs, rfl, rfl, fun h => h.elim (absurd rfl) (absurd rfl), nofun,
      ⟨_, .gone hno, Or.inl ⟨rfl, rfl, rfl⟩⟩, fun _ _ => Iff.rfl,
      fun hk => absurd hk (hnot (by cases hstand; nofun))⟩
  | comeBack =>
    cases hstand with
    | calling hdel =>
      refine ⟨hs, rfl, rfl, fun h => h.elim (absurd rfl) (absurd rfl), nofun,
        ⟨[], .pausing, Or.inr rfl⟩, fun j hj => ?_, nofun⟩
      rw [hdel]
      exact ⟨nofun, fun he => absurd (Option.some.inj he).symm hj⟩
  | again =>
    cases hstand
    exact ⟨hs, rfl, rfl, fun h => h.elim (absurd rfl) (absurd rfl), nofun,
      ⟨[], .taking, Or.inr rfl⟩, fun _ _ => Iff.rfl, fun hk => absurd hk (hnot nofun)⟩

theorem good_thread (hg : Good r) (x : Outside) (k : Nat) : Good (r.step x (.step k)) := by
  rw [step]
  split
  · rename_i task rest hts
    split
    · exact hg
    · rename_i o ho
      have hk := (List.getElem?_eq_some_iff.mp hts).1
      obtain ⟨hand, hstand, ⟨hnil, -⟩ | hheld⟩ := hg.posts.kept hts
      · cases hnil
      obtain ⟨hs, hdrains, hcontents, hrun, hne, ⟨hand', hstand', hbytes⟩, hothers, hcaller⟩ :=
        advance_of_round hg.books.ring hstand
          (fun hd => Option.some.inj (hts.symm.trans (hg.posts.caller hd)))
          (round_of_exec hstand ho)
      have hlen := congrArg List.length hdrains
      have hof : ∀ j : Nat, o.connection.drains[j]?.map Drain.attempt =
          r.connection.drains[j]?.map Drain.attempt := fun j => by rw [hdrains]
      have hruns := drainRuns_congr hdrains
      refine ⟨hg.roster.same (List.length_set ..) hlen hof (Nat.le_refl _)
          fun j hr => ⟨hruns j ▸ hr, rfl⟩,
        hg.posts.moved hk rfl hdrains rfl rfl hheld hstand' hbytes hothers hcaller,
        hg.books.moved hs hcontents hlen hof rfl rfl rfl rfl (hg.roster.threads ▸ hk)
          (fun htook => hg.roster.running (hrun (Or.inl htook))) fun batch hb => ⟨hne batch hb, ?_⟩⟩
      exact fun j => hg.roster.last (hrun (Or.inr (List.ne_nil_of_mem hb)))
  · exact hg

theorem good_step (hg : Good r) (x : Outside) (event : Event) : Good (r.step x event) := by
  cases event with
  | begin => exact good_begin hg x
  | put bytes => exact good_put hg x bytes
  | spawn => exact good_spawn hg x
  | stop k => exact good_stop hg x k
  | step k => exact good_thread hg x k

theorem good_after (hg : Good r) (events : List (Outside × Event)) : Good (r.after events) := by
  induction events generalizing r with
  | nil => exact hg
  | cons event events ih => exact ih (good_step hg event.1 event.2)

end Event

/-! ## A drain that was stopped -/

section Stopped

variable {r : Relay} {k : Nat}

/-- A drain that was made and stopped. -/
def Stopped (r : Relay) (k : Nat) : Prop :=
  k < r.connection.drains.length ∧ r.connection.drainRuns k = false

theorem stopped_step (h : Stopped r k) (x : Outside) (event : Event) :
    Stopped (r.step x event) k := by
  have hstay : ∀ {d : Connection}, k < d.drains.length ∧
      (d.drainRuns k = true → r.connection.drainRuns k = true) →
        k < d.drains.length ∧ d.drainRuns k = false := by
    rintro d ⟨hlt, hruns⟩
    exact ⟨hlt, eq_false_of_ne_true fun hrun => by cases h.2.symm.trans (hruns hrun)⟩
  have hexec : ∀ {task o}, r.connection.exec x task = some o →
      k < o.connection.drains.length ∧ o.connection.drainRuns k = false :=
    fun ho => hstay ((exec_turn ho).drains_stay h.1)
  cases event <;> rw [step]
  case stop j =>
    refine ⟨by rw [length_stopDrain]; exact h.1, ?_⟩
    rw [drainRuns_stopDrain]
    split
    · rfl
    · exact h.2
  case put bytes => exact hexec (show r.connection.exec x (.enqueue bytes) = some _ from rfl)
  case begin =>
    split
    · exact h
    · exact hexec (show r.connection.exec x .clearRing = some _ from rfl)
  case spawn =>
    split
    · exact h
    · split
      · exact h
      · exact hexec ‹_›
  case step j =>
    split
    · split
      · exact h
      · exact hstay (whole_drains_stay ‹_› h.1)
    · exact h

theorem stopped_after (h : Stopped r k) (events : List (Outside × Event)) :
    Stopped (r.after events) k := by
  induction events generalizing r with
  | nil => exact h
  | cons event events ih => exact ih (stopped_step h event.1 event.2)

end Stopped

/-! ## The law -/

/-- What holds of a ring and its drains, and of whatever happens from here on. -/
structure Apart (r : Relay) : Prop where
  /-- A drain that was stopped removes nothing from the ring and begins no delivery. -/
  stopped : ∀ k, Stopped r k → ∀ events x,
    ((r.after events).step x (.step k)).connection.ring = (r.after events).connection.ring ∧
      ((r.after events).step x (.step k)).given = (r.after events).given
  nonempty : ∀ entry ∈ r.given, entry.2 ≠ []
  /-- One drain at a time is with the consumer. -/
  alone : ∀ j k, r.Calling j → r.Calling k → j = k
  begins : ∀ k x, (r.step x (.step k)).given ≠ r.given → ∀ j, ¬ r.Calling j
  /-- Whatever was given for an attempt was given before anything for a later one. -/
  ordered : r.given.Pairwise fun entry later => ∃ n m,
    r.attemptOf entry.1 = some n ∧ r.attemptOf later.1 = some m ∧ n ≤ m
  /-- What was given for an attempt is the beginning of what was put during it. -/
  ahead : ∀ n, r.givenFor n <+: r.putIn n

theorem Posts.calling {r : Relay} {k : Nat} (h : Posts r) (hk : r.Calling k) :
    r.connection.delivering = some k := by
  obtain ⟨rest, hts⟩ := hk
  obtain ⟨hand, hstand, -⟩ := h.kept hts
  cases hstand with
  | calling hd => exact hd

end Relay

end SerialLink.Connection
