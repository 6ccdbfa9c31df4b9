-- What is left of an attempt when its last callback is made: nothing that was
-- recorded for it is held, open or listening, and a call to connect from the
-- callback begins afresh. The error that is told is that of the first failure to
-- come to the session.
import SerialLink.Proofs.Connection.Failure
import SerialLink.Proofs.Connection.Isolation
import SerialLink.Proofs.Connection.Release

namespace SerialLink.Connection

/-! ## What stays given back -/

/-- The reader is there and hands on nothing. -/
def Deaf (c : Connection) (k : Nat) : Prop :=
  ∃ a, c.readers[k]? = some a ∧ a.reader.listener = none

/-- The drain is there and goes on no further. -/
def Stopped (c : Connection) (k : Nat) : Prop := k < c.drains.length ∧ c.drainRuns k = false

section Stays

variable {c : Connection} {x : Outside} {task : Task} {o : Outcome} {k : Nat}

theorem takeResources_fixed (c : Connection) :
    c.takeResources.2.device = c.device ∧ c.takeResources.2.config = c.config := by
  unfold takeResources
  rcases h : c.session.resources.drain with _ | d <;> simp [h, stopDrain]

/-- No step changes the device or the configuration. -/
theorem fixed_of_exec (ho : c.exec x task = some o) :
    o.connection.device = c.device ∧ o.connection.config = c.config := by
  cases task <;> simp only [exec, Option.some.injEq] at ho <;> try subst ho
  case connect => unfold stepConnect; repeat' split <;> try exact ⟨rfl, rfl⟩
  case openPort => unfold stepOpenPort; split <;> exact ⟨rfl, rfl⟩
  case portOpened => unfold stepPortOpened; repeat' split <;> try exact ⟨rfl, rfl⟩
  case recordReader => unfold stepRecordReader; dsimp only; split <;> exact ⟨rfl, rfl⟩
  case startReader => unfold stepStartReader; repeat' split <;> try exact ⟨rfl, rfl⟩
  case startDrain => unfold stepStartDrain; split <;> exact ⟨rfl, rfl⟩
  case recordDrain => unfold stepRecordDrain; split <;> exact ⟨rfl, rfl⟩
  case fail =>
    unfold stepFail
    split
    · exact takeResources_fixed c
    · exact ⟨rfl, rfl⟩
  case teardown =>
    unfold stepTeardown
    split
    · exact takeResources_fixed c
    · exact ⟨rfl, rfl⟩
  case drop => exact takeResources_fixed c
  case handle kind => cases kind <;> unfold stepHandle <;> repeat' split <;> try exact ⟨rfl, rfl⟩
  case write => unfold stepWrite; split <;> exact ⟨rfl, rfl⟩
  case read =>
    obtain ⟨_, _, _, _, _, rfl⟩ := stepRead_eq ho
    exact ⟨rfl, rfl⟩
  case accept => unfold stepAccept; split <;> exact ⟨rfl, rfl⟩
  case check => unfold stepCheck; split <;> exact ⟨rfl, rfl⟩
  case enqueue => unfold stepEnqueue; split <;> exact ⟨rfl, rfl⟩
  case take => unfold stepTake; split <;> exact ⟨rfl, rfl⟩
  case deliver => rcases stepDeliver_eq ho with ⟨_, rfl⟩ | ⟨_, rfl⟩ <;> exact ⟨rfl, rfl⟩
  all_goals exact ⟨rfl, rfl⟩

theorem device_of_exec (ho : c.exec x task = some o) : o.connection.device = c.device :=
  (fixed_of_exec ho).1

theorem deaf_iff : Deaf c k ↔ k < c.readers.length ∧ ∀ m, ¬ Listens c k m := by
  constructor
  · rintro ⟨a, ha, hl⟩
    refine ⟨(List.getElem?_eq_some_iff.mp ha).1, ?_⟩
    rintro m ⟨b, hb, hm⟩
    rw [ha, Option.some.injEq] at hb
    rw [← hb, hl] at hm
    cases hm
  · rintro ⟨hlt, hno⟩
    refine ⟨c.readers[k], List.getElem?_eq_getElem hlt, ?_⟩
    rcases hl : c.readers[k].reader.listener with _ | m
    · rfl
    · exact absurd ⟨_, List.getElem?_eq_getElem hlt, hl⟩ (hno m)

theorem Turn.readers_le (h : Turn c task o) : c.readers.length ≤ o.connection.readers.length := by
  cases h with
  | worker _ hc | aside _ hc => rw [hc.readers]
  | readerRecorded | readerOrphaned => simp
  | readerStarted | readerStopped => rw [length_modifyReader]
  | failed | torn => rw [ended_readers]
  | letGo => exact Nat.le_of_eq (congrArg List.length (takeResources_readers c)).symm
  | _ => exact Nat.le_refl _

theorem Deaf.step (h : Deaf c k) (ho : c.exec x task = some o) : Deaf o.connection k := by
  obtain ⟨hlt, hno⟩ := deaf_iff.mp h
  refine deaf_iff.mpr ⟨Nat.lt_of_lt_of_le hlt (exec_turn ho).readers_le, fun m hm => ?_⟩
  rcases listens_of_exec ho hm with hm | ⟨_, _, hlength⟩
  · exact hno m hm
  · omega

theorem deaf_of_clear (ho : c.exec x (.clearListener k) = some o) (hk : k < c.readers.length) :
    Deaf o.connection k := by
  rw [exec, Option.some.injEq] at ho
  subst ho
  refine ⟨{ c.readers[k] with reader := c.readers[k].reader.setListener none }, ?_, rfl⟩
  rw [modifyReader, List.getElem?_modify, List.getElem?_eq_getElem hk]
  simp

theorem Stopped.step (h : Stopped c k) (ho : c.exec x task = some o) : Stopped o.connection k := by
  obtain ⟨hlt, hruns⟩ := (exec_turn ho).drains_stay h.1
  exact ⟨hlt, eq_false_of_ne_true fun hr => by rw [h.2] at hruns; cases hruns hr⟩

/-- What runs is there. -/
theorem lt_of_drainRuns (h : c.drainRuns k = true) : k < c.drains.length := by
  by_contra hge
  rw [drainRuns, List.getElem?_eq_none (Nat.le_of_not_lt hge)] at h
  cases h

end Stays

section Possible

variable {h : History} {earlier since : List Entry} {last : Entry} {n k : Nat} {notice : Notice}

theorem guarded_of_possible (hp : h.Possible) : Guarded h.machine.connection h.machine.pending := by
  obtain ⟨device, config, prober, moves, rfl⟩ := hp
  exact guarded_of_moves device config prober moves

theorem accounted_of_possible (hp : h.Possible) : Accounted h := by
  obtain ⟨device, config, prober, moves, rfl⟩ := hp
  exact accounted_of_moves device config prober moves

/-- What is neither loose nor gives back is done by a connection that is held only. -/
theorem held_of_task {move : Move} {e : Entry} {m' : Machine} (hp : h.Possible)
    (hm : h.machine.move move = some (e, m')) (ht : e.task.isRest = false) :
    e.before.dropped = false := by
  obtain ⟨_, rfl, _, _, hsource⟩ := makes_of_move hm
  rcases hsource with hpending | ⟨_, hb⟩
  · exact (guarded_of_possible hp).rest_of_gone (hpending ▸ Multiset.mem_cons_self ..) ht
  · cases hb with
    | event => cases ht
    | connect held | disconnect held | write held | drop held | readError held => exact held

theorem reader_made (hp : h.Possible)
    (hk : h.machine.connection.session.resources.reader = some k) :
    k < h.machine.connection.readers.length := by
  have hledger := (accounted_of_possible hp).ledger
  obtain ⟨device, config, prober, moves, rfl⟩ := hp
  have hcount := (numbers_of_moves device config prober moves k).2
  rw [hledger, Multiset.count_add, Multiset.count_add] at hcount
  have howned : 0 < Multiset.count (Item.reader k) (itemsOf (History.of (.new device config prober)
      moves).machine.connection.session.resources) := by
    rw [Multiset.coe_count, List.count_pos_iff]
    simp [itemsOf, hk]
  split at hcount
  · assumption
  · omega

theorem drain_runs (hp : h.Possible)
    (hk : h.machine.connection.session.resources.drain = some k) :
    h.machine.connection.drainRuns k = true := by
  have hruns := (accounted_of_possible hp).drains k
  unfold RunsOwned at hruns
  rw [if_pos hk] at hruns
  split at hruns
  · assumption
  · omega

/-- What was given back is owned no more, if it is taken once only. -/
theorem not_owned_of_given {i : Item} (hp : h.Possible) (honce : h.taken.count i ≤ 1)
    (hgiven : ∃ f ∈ h.entries, i ∈ f.given) :
    i ∉ itemsOf h.machine.connection.session.resources := by
  intro howned
  obtain ⟨f, hf, hi⟩ := hgiven
  rw [(accounted_of_possible hp).ledger, Multiset.count_add, Multiset.count_add] at honce
  have h1 : 0 < h.given.count i := by
    rw [History.given, Multiset.coe_count, List.count_pos_iff]
    exact List.mem_flatMap.mpr ⟨f, hf, hi⟩
  have h2 : 0 < Multiset.count i (itemsOf h.machine.connection.session.resources) := by
    rw [Multiset.coe_count, List.count_pos_iff]
    exact howned
  omega

theorem not_owned_of_stopReader {f : Entry} (hp : h.Possible) (hf : f ∈ h.entries)
    (ht : f.task = .stopReader k) : h.machine.connection.session.resources.reader ≠ some k := by
  intro hown
  refine not_owned_of_given hp ((accounted_of_possible hp).readers k) ⟨f, hf, ?_⟩
    (by simp [itemsOf, hown])
  rw [Entry.given, ht]
  exact List.mem_append_left _ (List.mem_singleton_self _)

theorem not_owned_of_closed {f : Entry} (hp : h.Possible) (hf : f ∈ h.entries)
    (hc : .closed k ∈ f.effects) : h.machine.connection.session.resources.port ≠ some k := by
  intro hown
  have honce : h.taken.count (.port k) ≤ 1 := by
    rw [(accounted_of_possible hp).ports k]
    split <;> omega
  refine not_owned_of_given hp honce ⟨f, hf, ?_⟩ (by simp [itemsOf, hown])
  exact List.mem_append_right _ (List.mem_filterMap.mpr ⟨_, hc, rfl⟩)

theorem not_owned_of_stopped (hp : h.Possible) (hs : Stopped h.machine.connection k) :
    h.machine.connection.session.resources.drain ≠ some k := by
  intro hown
  have := hs.2
  rw [drain_runs hp hown] at this
  cases this

theorem unsubscribed_of_task {f : Entry} (hp : h.Possible) (hf : f ∈ h.entries)
    (ht : f.task = .unsubscribe k) : .unsubscribed k ∈ f.effects := by
  obtain ⟨o, ho, heffects, _⟩ := hp.ran hf
  rw [ht, exec, Option.some.injEq] at ho
  rw [heffects, ← ho]
  exact List.mem_singleton_self _

theorem closed_of_task {f : Entry} (hp : h.Possible) (hf : f ∈ h.entries)
    (ht : f.task = .closePort k) : .closed k ∈ f.effects := by
  obtain ⟨o, ho, heffects, _⟩ := hp.ran hf
  rw [ht, exec, Option.some.injEq] at ho
  rw [heffects, ← ho]
  exact List.mem_singleton_self _

theorem Entry.Ends.session (h : last.Ends n notice) :
    last.after.session = { state := notice.state, attempt := n, resources := {} } := by
  rw [h.after, ended_session, h.attempt]

/-- An attempt that has ended is over from then on. -/
theorem over_since (hp : h.Possible) (hs : h.entries = earlier ++ last :: since)
    (he : last.Ends n notice) (hend : notice.state.isLive = false) :
    Over h.machine.connection.session n := by
  refine hp.kept_since (K := fun d => Over d.session n)
    (fun h ho => (exec_turn ho).over h) hs ?_
  rw [he.session]
  exact Or.inr ⟨rfl, hend⟩

/-- While no newer attempt has begun, the session owns nothing. -/
theorem empty_since (hp : h.Possible) (hs : h.entries = earlier ++ last :: since)
    (he : last.Ends n notice) (hend : notice.state.isLive = false)
    (hn : h.machine.connection.session.attempt = n) :
    h.machine.connection.session.resources = {} := by
  have hg := guarded_of_possible hp
  have hrest : h.machine.connection.session.state.isLive = false := by
    rcases over_since hp hs he hend with hlt | ⟨_, hl⟩
    · omega
    · exact hl
  rcases hd : h.machine.connection.dropped
  · exact (owns_at_rest hrest).mp (hg.held hd).owns
  · exact (hg.gone hd).empty

/-- All that was recorded for an attempt was owned when it ended. -/
theorem held_within (hp : h.Possible) (hs : h.entries = earlier ++ last :: since)
    (he : last.Ends n notice) (hend : notice.state.isLive = false) {r : Resources}
    (hr : Held h.entries n r) : Within r last.before.session.resources := by
  obtain ⟨f, hf, ha, rfl⟩ := hr
  rw [hs] at hf
  rcases List.mem_append.mp hf with hearly | hf
  · obtain ⟨past, move, m', hpast, rfl, hm⟩ := hp.move_of_split hs
    have hrest : last.task.isRest = false := by
      cases notice with
      | failed e => rw [(he.failed e rfl).1]; rfl
      | disconnected =>
        obtain ⟨a, ht⟩ := he.torn rfl
        rw [ht]
        rfl
      | connecting | connected => cases hend
    have held := held_of_task hpast hm hrest
    have hlive := he.live
    obtain ⟨_, rfl, _, _, _⟩ := makes_of_move hm
    exact (gathered_of_possible hpast).whole held hlive _ ⟨f, hearly, ha.trans he.attempt.symm, rfl⟩
  · rcases List.mem_cons.mp hf with rfl | hf
    · rw [he.session]
      exact .nothing _
    · obtain ⟨front, back, rfl⟩ := List.append_of_mem hf
      rw [← List.cons_append, ← List.append_assoc] at hs
      obtain ⟨past, move, m', hpast, hentries, hm⟩ := hp.move_of_split hs
      have hafter : m'.connection = f.after := by
        obtain ⟨_, rfl, hc, _, _⟩ := makes_of_move hm
        exact hc
      have hsplit : past.entries ++ [f] = earlier ++ last :: (front ++ [f]) := by
        rw [hentries, List.append_assoc, List.cons_append]
      have hempty := empty_since (hpast.snoc hm) hsplit he hend (by rw [hafter]; exact ha)
      rw [hafter] at hempty
      rw [hempty]
      exact .nothing _

theorem deaf_since (hp : h.Possible) (hs : h.entries = earlier ++ last :: since)
    (he : last.Ends n notice) (hk : last.before.session.resources.reader = some k)
    (hclear : ∃ f ∈ since, f.task = .clearListener k) : Deaf h.machine.connection k := by
  have hlt : k < last.after.readers.length := by
    obtain ⟨past, move, m', hpast, _, hm⟩ := hp.move_of_split hs
    rw [he.after, ended_readers]
    obtain ⟨_, rfl, _, _, _⟩ := makes_of_move hm
    exact reader_made hpast hk
  obtain ⟨f, hf, htask⟩ := hclear
  obtain ⟨front, back, rfl⟩ := List.append_of_mem hf
  rw [← List.cons_append, ← List.append_assoc] at hs
  refine hp.kept_since (K := fun d => Deaf d k) (fun h ho => h.step ho) hs ?_
  obtain ⟨past, move, m', hpast, hentries, hm⟩ := hp.move_of_split hs
  have hlt' := hpast.kept_since (K := fun d => k < d.readers.length)
    (fun h ho => Nat.lt_of_lt_of_le h (exec_turn ho).readers_le) hentries hlt
  obtain ⟨ho, rfl, _, _, _⟩ := makes_of_move hm
  dsimp only at htask
  subst htask
  exact deaf_of_clear ho hlt'

theorem stopped_since (hp : h.Possible) (hs : h.entries = earlier ++ last :: since)
    (he : last.Ends n notice) (hk : last.before.session.resources.drain = some k) :
    Stopped h.machine.connection k := by
  refine hp.kept_since (K := fun d => Stopped d k) (fun h ho => h.step ho) hs ?_
  obtain ⟨past, move, m', hpast, _, hm⟩ := hp.move_of_split hs
  have hruns : last.before.drainRuns k = true := by
    obtain ⟨_, rfl, _, _, _⟩ := makes_of_move hm
    exact drain_runs hpast hk
  rw [he.after]
  refine ⟨?_, by rw [drainRuns_ended, if_pos hk]⟩
  exact Nat.lt_of_lt_of_eq (lt_of_drainRuns hruns) (length_takeResources last.before).symm

end Possible

/-! ## The law -/

/-- What is left of attempt `n`, which was over before the steps `since`. -/
structure CleanedUp (h : History) (n : Nat) (since : List Entry) : Prop where
  unsubscribed : ∀ r k, Held h.entries n r → r.subscription = some k →
    ∃ f ∈ since, .unsubscribed k ∈ f.effects
  closed : ∀ r k, Held h.entries n r → r.port = some k → ∃ f ∈ since, .closed k ∈ f.effects
  deaf : ∀ r k, Held h.entries n r → r.reader = some k →
    Deaf h.machine.connection k ∧ ∃ f ∈ since, f.task = .stopReader k
  stopped : ∀ r k, Held h.entries n r → r.drain = some k → Stopped h.machine.connection k
  empty : h.machine.connection.session.attempt = n → h.machine.connection.session.resources = {}
  /-- What a newer attempt owns is its own. -/
  apart : ∀ r k, Held h.entries n r →
    (r.drain = some k → h.machine.connection.session.resources.drain ≠ some k) ∧
    (r.reader = some k → h.machine.connection.session.resources.reader ≠ some k) ∧
    (r.port = some k → h.machine.connection.session.resources.port ≠ some k)
  anew : ∀ k, h.machine.connection.session.resources.subscription = some k →
    ∃ f ∈ since, .subscribed k ∈ f.effects

section Law

variable {h : History} {earlier since : List Entry} {last : Entry} {n k : Nat} {notice : Notice}

/-- A subscription that is held was made since the attempt ended. -/
theorem anew_since (hp : h.Possible) (hs : h.entries = earlier ++ last :: since)
    (he : last.Ends n notice) (hend : notice.state.isLive = false)
    (hk : h.machine.connection.session.resources.subscription = some k) :
    ∃ f ∈ since, .subscribed k ∈ f.effects := by
  obtain ⟨f, hf, heffect, ha⟩ := (gathered_of_possible hp).made k hk
  have hnewer : n < h.machine.connection.session.attempt := by
    rcases over_since hp hs he hend with hlt | ⟨hn, _⟩
    · exact hlt
    · rw [empty_since hp hs he hend hn] at hk
      cases hk
  rw [hs] at hf
  rcases List.mem_append.mp hf with hf | hf
  · obtain ⟨past, move, m', hpast, rfl, hm⟩ := hp.move_of_split hs
    have hle := (gathered_of_possible hpast).early f hf
    have hn := he.attempt
    obtain ⟨_, rfl, _, _, _⟩ := makes_of_move hm
    dsimp only at hn
    omega
  · rcases List.mem_cons.mp hf with rfl | hf
    · rw [he.session] at ha
      dsimp only at ha
      omega
    · exact ⟨f, hf, heffect⟩

theorem cleanedUp_of_released (hp : h.Possible) (hs : h.entries = earlier ++ last :: since)
    (he : last.Ends n notice) (hend : notice.state.isLive = false)
    (hback : ∀ t ∈ releaseTasks last.before.session.resources, ∃ f ∈ since, f.task = t) :
    CleanedUp h n since := by
  have hwithin := fun {r} => held_within (r := r) hp hs he hend
  have hsince : ∀ f ∈ since, f ∈ h.entries := by
    intro f hf
    rw [hs]
    exact List.mem_append_right _ (List.mem_cons_of_mem _ hf)
  have hclosed : ∀ r k, Held h.entries n r → r.port = some k →
      ∃ f ∈ since, .closed k ∈ f.effects := by
    intro r k hr hk
    obtain ⟨f, hf, htask⟩ := hback (.closePort k)
      (mem_releaseTasks.mpr (Or.inr (Or.inr ⟨k, (hwithin hr).port k hk, rfl⟩)))
    exact ⟨f, hf, closed_of_task hp (hsince f hf) htask⟩
  have hreader : ∀ r k, Held h.entries n r → r.reader = some k →
      Deaf h.machine.connection k ∧ ∃ f ∈ since, f.task = .stopReader k := by
    intro r k hr hk
    have hown := (hwithin hr).reader k hk
    exact ⟨deaf_since hp hs he hown
        (hback _ (mem_releaseTasks.mpr (Or.inl ⟨k, hown, Or.inl rfl⟩))),
      hback _ (mem_releaseTasks.mpr (Or.inl ⟨k, hown, Or.inr rfl⟩))⟩
  have hdrain : ∀ r k, Held h.entries n r → r.drain = some k → Stopped h.machine.connection k :=
    fun r k hr hk => stopped_since hp hs he ((hwithin hr).drain k hk)
  refine ⟨?_, hclosed, hreader, hdrain, empty_since hp hs he hend,
    fun r k hr => ⟨?_, ?_, ?_⟩, fun k => anew_since hp hs he hend⟩
  · intro r k hr hk
    obtain ⟨f, hf, htask⟩ := hback (.unsubscribe k)
      (mem_releaseTasks.mpr (Or.inr (Or.inl ⟨k, (hwithin hr).subscription k hk, rfl⟩)))
    exact ⟨f, hf, unsubscribed_of_task hp (hsince f hf) htask⟩
  · exact fun hk => not_owned_of_stopped hp (hdrain r k hr hk)
  · intro hk
    obtain ⟨_, f, hf, htask⟩ := hreader r k hr hk
    exact not_owned_of_stopReader hp (hsince f hf) htask
  · intro hk
    obtain ⟨f, hf, hc⟩ := hclosed r k hr hk
    exact not_owned_of_closed hp (hsince f hf) hc

end Law

/-- A call to connect begins the attempt behind `n`, if the event source takes the subscription. -/
def Reconnects (m : Machine) (n : Nat) : Prop :=
  ∀ x k, x.subscribe = .ok k → ∃ f m', m.move (.call .connect x) = some (f, m') ∧
    f.after.session = { state := if x.permitted then .connecting else .awaitingPermission
                        attempt := n + 1
                        resources := { subscription := some k } } ∧
    .finish (.connect (.ok ())) ∈ m'.pending

/-- The steps before the end of attempt `n` bear out that it failed with this error. -/
structure Blamed (h : History) (n : Nat) (e : ConnectionError) (earlier : List Entry) : Prop where
  wrong : ∃ f ∈ earlier, f.before.device = h.machine.connection.device ∧ f.GoesWrong n e
  /-- No other error came to the session before. -/
  first : ∀ f ∈ earlier, ∀ e', f.task ≠ .fail n e'
  /-- Where access was held, nothing else goes wrong with the attempt. -/
  only : .waits ∉ moments h.entries n → ∀ f ∈ h.entries, ∀ e', f.GoesWrong n e' → e' = e

/-- How the opening for attempt `n` goes. -/
structure StopsWhereWrong (es : List Entry) (n : Nat) : Prop where
  /-- Behind a stage that goes wrong the error is handed on, and no further stage is gone into. -/
  stops : es.Pairwise fun f g => ∀ e, f.GoesWrong n e → f.task.stage = some n →
    g.task.stage = some n → g.task.bears = some (n, e)
  /-- An attempt that ends while it waits for its grant is not opened at any time. -/
  unopened : ∀ f ∈ es, f.EndsWaiting n → ∀ g ∈ es, g.task.stage ≠ some n

section Law

variable {h : History} {earlier since : List Entry} {last : Entry} {n k : Nat} {notice : Notice}

/-- A call to connect can be made while the connection is held. -/
theorem move_connect {m : Machine} (held : m.connection.dropped = false) (x : Outside) :
    ∃ f m', m.move (.call .connect x) = some (f, m') ∧
      f.after = (m.connection.stepConnect x).connection ∧
      ∀ t ∈ (m.connection.stepConnect x).next, t ∈ m'.pending := by
  have hlast : (m.threads ++ [[Task.connect]])[m.threads.length]? = some [.connect] := by simp
  refine ⟨⟨.call .connect x, m.connection, .connect, (m.connection.stepConnect x).effects,
      (m.connection.stepConnect x).connection⟩,
    ⟨(m.connection.stepConnect x).connection,
      (m.threads ++ [[Task.connect]]).set m.threads.length
        ((m.connection.stepConnect x).next ++ []) ++ (m.connection.stepConnect x).started⟩,
    ?_, rfl, ?_⟩
  · simp only [Machine.move, Machine.takesCall, held, Bool.not_false, if_true, Machine.begin,
      Machine.spawn, Call.tasks, Machine.enter, Machine.next?, Machine.step, hlast,
      Option.bind_some, List.head?_cons, exec, Option.map_some]
  · intro t ht
    simp [Machine.pending, ht]

/-- A session at rest takes the call, if the event source takes the subscription. -/
theorem stepConnect_at_rest {c : Connection} {x : Outside} (hrest : c.session.state.isLive = false)
    (hempty : c.session.resources = {}) (hk : x.subscribe = .ok k) :
    (c.stepConnect x).connection.session =
        { state := if x.permitted then .connecting else .awaitingPermission
          attempt := c.session.attempt + 1
          resources := { subscription := some k } } ∧
      .finish (.connect (.ok ())) ∈ (c.stepConnect x).next := by
  rw [stepConnect, hrest, if_neg Bool.false_ne_true, hk, hempty]
  exact ⟨rfl, by simp⟩

/-- A call to connect that comes while the last callback is made begins a fresh attempt, unless
another one did before. -/
theorem reconnects_since {e : Entry} {m' : Machine} {move : Move} (hp : h.Possible)
    (hm : h.machine.move move = some (e, m')) (told : .notified n notice ∈ e.effects)
    (hs : h.entries = earlier ++ last :: since) (he : last.Ends n notice)
    (hend : notice.state.isLive = false) (hn : h.machine.connection.session.attempt = n) :
    Reconnects m' n := by
  intro x k hk
  have hrest : h.machine.connection.session.state.isLive = false := by
    rcases over_since hp hs he hend with hlt | ⟨_, hl⟩
    · omega
    · exact hl
  have hempty := empty_since hp hs he hend hn
  obtain ⟨ho, rfl, hc, _, _⟩ := makes_of_move hm
  obtain ⟨rfl, _⟩ := told_alone (exec_turn ho) told
  have held := held_of_task hp hm rfl
  rw [exec, Option.some.injEq] at ho
  rw [← ho] at hc
  obtain ⟨f, m'', hmove, hafter, hnext⟩ := move_connect (m := m') (hc ▸ held) x
  obtain ⟨hsession, hfinish⟩ := stepConnect_at_rest hrest hempty hk
  rw [hc] at hafter hnext
  exact ⟨f, m'', hmove, by rw [hafter, hsession, hn], hnext _ hfinish⟩

theorem same_device (hp : h.Possible) {f : Entry} (hf : f ∈ h.entries) :
    f.before.device = h.machine.connection.device := by
  obtain ⟨front, back, hs⟩ := List.append_of_mem hf
  refine (hp.kept_since (K := fun d => d.device = f.before.device)
    (fun h ho => (device_of_exec ho).trans h) hs ?_).symm
  obtain ⟨o, ho, _, hafter⟩ := hp.ran hf
  rw [hafter]
  exact device_of_exec ho

theorem blamed_of_ends (hp : h.Possible) (hs : h.entries = earlier ++ last :: since)
    {err : ConnectionError} (he : last.Ends n (.failed err)) : Blamed h n err earlier := by
  obtain ⟨htask, hstate⟩ := he.failed err rfl
  have hn := he.attempt
  have hearlier : ∀ f ∈ earlier, f ∈ h.entries := by
    intro f hf
    rw [hs]
    exact List.mem_append_left _ hf
  obtain ⟨past, move, m', ⟨device, config, prober, moves, rfl⟩, rfl, hm⟩ := hp.move_of_split hs
  have hcarried := carried_of_moves device config prober moves
  obtain ⟨_, rfl, _, _, hsource⟩ := makes_of_move hm
  dsimp only at htask hstate hn
  subst htask
  have hwrong : ∃ f ∈ (History.of (.new device config prober) moves).entries,
      f.GoesWrong n err := by
    rcases hsource with hpending | ⟨_, hb⟩
    · exact hcarried.wrong _ (hpending ▸ Multiset.mem_cons_self ..) n err rfl
    · cases hb
  obtain ⟨f, hf, hfw⟩ := hwrong
  refine ⟨⟨f, hf, same_device hp (hearlier f hf), hfw⟩, ?_, ?_⟩
  · intro g hg e' hfail
    rcases hcarried.past g hg n e' hfail with hlt | ⟨_, hwait, hconn⟩
    · omega
    · exact (hstate.elim hwait hconn).elim
  · intro hw g hg e' hgw
    have hf' := hearlier f hf
    obtain ⟨_, _, _, _, rfl⟩ := hp
    exact wrong_once _ _ _ _ hw hg hf' hgw hfw

/-- An attempt is cleaned up before its last callback is made, whatever moves a connection makes
and whoever ends the attempt. -/
theorem cleanup_is_complete_before_the_last_callback (device : DeviceInfo)
    (config : ConnectionConfig) (prober : Prober) (moves : List Move) :
    let h := History.of (.new device config prober) moves
    (∀ n, StopsWhereWrong h.entries n) ∧
      ∀ move e m' n notice, h.machine.move move = some (e, m') → .notified n notice ∈ e.effects →
        notice.state.isLive = false →
        ∃ earlier last since, h.entries = earlier ++ last :: since ∧ last.Ends n notice ∧
          CleanedUp h n since ∧
          (h.machine.connection.session.attempt = n → Reconnects m' n) ∧
          ∀ err, notice = .failed err → Blamed h n err earlier := by
  intro h
  have hp : h.Possible := ⟨device, config, prober, moves, rfl⟩
  refine ⟨fun n => ?_, ?_⟩
  · have hstraight := straight_of_moves (.new device config prober) moves n
    exact ⟨hstraight.stops, fun f hf hend =>
      (hstraight.ungranted (Or.inr (Or.inr ⟨f, hf, hend⟩))).2⟩
  · intro move e m' n notice hm told hend
    obtain ⟨earlier, last, since, hs, he, hback⟩ := released_of_callback hp hm told hend
    refine ⟨earlier, last, since, hs, he, cleanedUp_of_released hp hs he hend hback,
      reconnects_since hp hm told hs he hend, ?_⟩
    rintro err rfl
    exact blamed_of_ends hp hs he

end Law

/-- The error that a callback tells of, and its attempt. -/
def Effect.blame : Effect → Option (Nat × ConnectionError)
  | .notified n (.failed e) => some (n, e)
  | _ => none

theorem notified_of_blame {effects : List Effect} {n : Nat} {e : ConnectionError}
    (h : effects.filterMap Effect.blame = [(n, e)]) : .notified n (.failed e) ∈ effects := by
  have hmem : (n, e) ∈ effects.filterMap Effect.blame := by
    rw [h]
    exact List.mem_singleton_self _
  obtain ⟨effect, heffect, hblame⟩ := List.mem_filterMap.mp hmem
  unfold Effect.blame at hblame
  split at hblame <;> cases hblame
  exact heffect

/-- A port whose line parameters cannot be set: before the failure is told, the subscription is
removed and the port is closed, and a call to connect from the callback begins the next attempt. -/
theorem a_port_that_cannot_be_set_up_is_closed :
    let x : Outside :=
      { subscribe := .ok 1, permitted := true, requestPermission := .ok ()
        openPort := fun _ => .ok (), packetSize := fun _ => 64
        setParameters := fun _ _ => .error (.invalidParameters "no")
        write := fun _ data => .ok data.length, read := fun _ _ => none }
    let h := History.of (.new ⟨"usb", Vendor.ftdi, 0x6001, none, none⟩ {} {})
      ([.call .connect x] ++ List.replicate 9 (.step 0 x))
    ∃ e m' earlier last since, h.machine.move (.step 0 x) = some (e, m') ∧
      .notified 1 (.failed (.port (.invalidParameters "no"))) ∈ e.effects ∧
      h.entries = earlier ++ last :: since ∧ (∃ f ∈ since, .unsubscribed 1 ∈ f.effects) ∧
      (∃ f ∈ since, .closed 0 ∈ f.effects) ∧ Reconnects m' 1 ∧
      Blamed h 1 (.port (.invalidParameters "no")) earlier := by
  intro x h
  have hh : h = History.of (.new ⟨"usb", Vendor.ftdi, 0x6001, none, none⟩ {} {})
    ([.call .connect x] ++ List.replicate 9 (.step 0 x)) := rfl
  have hlast : (h.machine.move (.step 0 x)).map (fun p => p.1.effects.filterMap Effect.blame) =
      some [(1, .port (.invalidParameters "no"))] := by decide +kernel
  have hheld : Held h.entries 1 { subscription := some 1, port := some 0 } := by
    unfold Held
    decide +kernel
  have hattempt : h.machine.connection.session.attempt = 1 := by decide +kernel
  have hlaw := (cleanup_is_complete_before_the_last_callback
    ⟨"usb", Vendor.ftdi, 0x6001, none, none⟩ {} {}
    ([.call .connect x] ++ List.replicate 9 (.step 0 x))).2
  -- From here on only what was computed of the history is used.
  rw [← hh] at hlaw
  clear_value h
  obtain ⟨⟨e, m'⟩, hm, hblame⟩ := Option.map_eq_some_iff.mp hlast
  have told := notified_of_blame hblame
  obtain ⟨earlier, last, since, hs, _, hclean, hagain, hblamed⟩ :=
    hlaw (.step 0 x) e m' 1 _ hm told rfl
  exact ⟨e, m', earlier, last, since, hm, told, hs, hclean.unsubscribed _ 1 hheld rfl,
    hclean.closed _ 0 hheld rfl, hagain hattempt, hblamed _ rfl⟩

/-- A call to connect from the last callback needs a subscription, and what races with the end of an
attempt may come in front of it. In the first run the call is refused, because the event source
takes no subscription. In the second a reader has its listener when the end is told, because it was
made when the attempt was over. In the third the request for the grant fails, and a denial that is
heard behind that is told. In the fourth the grant comes behind a denial, and the port is opened
when the failure has been told. In the fifth the error is that no thread could be made. -/
theorem cleanup_may_be_overtaken :
    let x : Outside :=
      { subscribe := .ok 1, permitted := true, requestPermission := .error (.permissionRequest "no")
        openPort := fun _ => .ok (), packetSize := fun _ => 64
        setParameters := fun _ _ => .ok (), write := fun _ data => .ok data.length
        read := fun _ _ => none }
    let waiting : Outside := { x with permitted := false }
    let steps (thread count : Nat) : List Move := List.replicate count (.step thread x)
    let denied : Move := .event ⟨"usb", .permissionDenied⟩ x
    let granted : Move := .event ⟨"usb", .permissionGranted⟩ x
    let run (moves : List Move) : History :=
      .of (.new ⟨"usb", Vendor.ftdi, 0x6001, none, none⟩ {} {}) moves
    let told (h : History) := h.effects.filterMap Effect.blame
    let up := [.call .connect x] ++ steps 0 8
    let made := run (up ++ [.call .disconnect x] ++ steps 0 1 ++ steps 1 3)
    let refused := run ([.call .connect x, .call .disconnect x] ++ steps 1 2 ++
      [.call .connect { x with subscribe := .error (.subscription "no") }])
    let asked := [.call .connect waiting] ++ steps 0 3
    let raced := run (asked ++ [denied] ++ steps 1 3)
    let opened := run ([.call .connect waiting, denied, granted] ++ steps 1 3 ++ steps 2 1)
    let threadless := run (up ++ steps 0 1 ++ [.step 0 { x with thread := .error "none" }] ++
      steps 0 6)
    (refused.told 1 .disconnected = 1 ∧ refused.machine.connection.session = { attempt := 1 }) ∧
      (made.told 1 .disconnected = 1 ∧
        made.machine.connection.readers.map (·.reader.listener) = [some 1]) ∧
      (((run asked).machine.next? 0).bind Task.bears = some (1, .port (.permissionRequest "no")) ∧
        told raced = [(1, .accessDenied)]) ∧
      (told opened = [(1, .accessDenied)] ∧
        opened.entries.getLast?.bind (·.task.stage) = some 1) ∧
      told threadless = [(1, .reader (.spawn "none"))] := by
  decide +kernel

end SerialLink.Connection
