-- How an attempt ends. The step that ends it takes all that the session owns and
-- leaves it to one thread, which gives it back and makes the callback behind
-- that. What the session owned by then is all that was recorded for the attempt.
import SerialLink.Proofs.Connection.Order

namespace SerialLink.Connection

/-! ## Where a step stands in a history -/

/-- The history is one that a new connection may have. -/
def History.Possible (h : History) : Prop :=
  ∃ device config prober moves, h = .of (.new device config prober) moves

section Splits

variable {h : History} {before after : List Entry} {e : Entry}

theorem History.Possible.snoc {move : Move} {m' : Machine} (hp : h.Possible)
    (hm : h.machine.move move = some (e, m')) :
    Possible { entries := h.entries ++ [e], machine := m' } := by
  obtain ⟨device, config, prober, moves, rfl⟩ := hp
  refine ⟨device, config, prober, moves ++ [move], ?_⟩
  rw [of_snoc, extend, hm]

/-- Every step of a history was a move of the history before it. -/
theorem History.Possible.move_of_split (hp : h.Possible) (he : h.entries = before ++ e :: after) :
    ∃ past move m', Possible past ∧ past.entries = before ∧
      past.machine.move move = some (e, m') := by
  obtain ⟨device, config, prober, moves, rfl⟩ := hp
  revert before e after
  refine moves_induction (I := fun h => ∀ {before after : List Entry} {e : Entry},
    h.entries = before ++ e :: after → ∃ past move m', Possible past ∧ past.entries = before ∧
      past.machine.move move = some (e, m')) ?_ ?_ moves
  · intro before after e he
    simp at he
  · intro moves move last m' ih hm before after e he
    rcases List.eq_nil_or_concat after with rfl | ⟨front, f, rfl⟩
    · obtain ⟨hbefore, hlast⟩ := List.append_inj' he rfl
      obtain ⟨rfl, _⟩ := List.cons.inj hlast
      exact ⟨_, move, m', ⟨device, config, prober, moves, rfl⟩, hbefore, hm⟩
    · rw [List.concat_eq_append, ← List.cons_append, ← List.append_assoc] at he
      exact ih (List.append_inj' he rfl).1

/-- What a step leaves true, and every later one keeps, is true. -/
theorem History.Possible.kept_since {K : Connection → Prop} (hp : h.Possible)
    (stays : ∀ {d x task o}, K d → d.exec x task = some o → K o.connection)
    (he : h.entries = before ++ e :: after) (hK : K e.after) : K h.machine.connection := by
  obtain ⟨device, config, prober, moves, rfl⟩ := hp
  revert before e after
  refine moves_induction (I := fun h => ∀ {before after : List Entry} {e : Entry},
    K e.after → h.entries = before ++ e :: after → K h.machine.connection) ?_ ?_ moves
  · intro before after e _ he
    simp at he
  · intro moves move last m' ih hm before after e hK he
    obtain ⟨ho, rfl, hc, _, _⟩ := makes_of_move hm
    dsimp only at he ⊢
    rw [hc]
    rcases List.eq_nil_or_concat after with rfl | ⟨front, f, rfl⟩
    · obtain ⟨_, hlast⟩ := List.append_inj' he rfl
      obtain ⟨rfl, _⟩ := List.cons.inj hlast
      exact hK
    · rw [List.concat_eq_append, ← List.cons_append, ← List.append_assoc] at he
      exact stays (ih hK (List.append_inj' he rfl).1) ho

/-- A step that was taken is what its task comes to. -/
theorem History.Possible.ran (hp : h.Possible) (he : e ∈ h.entries) :
    ∃ o, e.before.exec e.move.outside e.task = some o ∧ e.effects = o.effects ∧
      e.after = o.connection := by
  obtain ⟨before, after, hsplit⟩ := List.append_of_mem he
  obtain ⟨past, move, m', _, _, hm⟩ := hp.move_of_split hsplit
  obtain ⟨ho, rfl, _, _, _⟩ := makes_of_move hm
  exact ⟨_, ho, rfl, rfl⟩

end Splits

/-! ## The end of an attempt -/

/-- Attempt `n` ends with this step, and `notice` will tell of it. -/
structure Entry.Ends (f : Entry) (n : Nat) (notice : Notice) : Prop where
  attempt : f.before.session.attempt = n
  live : f.before.session.state.isLive = true
  /-- The session is emptied, and its drain is stopped. -/
  after : f.after = f.before.ended notice.state
  failed : ∀ e, notice = .failed e → f.task = .fail n e ∧
    (f.before.session.state = .awaitingPermission ∨ f.before.session.state = .connecting)
  torn : notice = .disconnected → ∃ a, f.task = .teardown a

/-- All that was owned at the end of an attempt is given back before its last callback is made, by
the steps since or by the tasks that stand before it. -/
def Released (es : List Entry) (l : List Task) : Prop :=
  ∀ front n notice back, l = front ++ .notify n notice :: back → notice.state.isLive = false →
    ∃ earlier last since, es = earlier ++ last :: since ∧ last.Ends n notice ∧
      ∀ t ∈ releaseTasks last.before.session.resources, t ∈ front ∨ ∃ f ∈ since, f.task = t

section Released

variable {es : List Entry} {c : Connection} {x : Outside} {task : Task} {rest l : List Task}
  {o : Outcome} {move : Move} {n : Nat} {notice : Notice}

theorem not_mem_releaseTasks (r : Resources) : .notify n notice ∉ releaseTasks r := by
  intro h
  cases isRelease_of_mem h

variable (move) in
/-- The last callback of an attempt is left to be made by the step that ends it, behind what gives
back all that was owned. -/
theorem Turn.ends (h : Turn c task o) (hn : .notify n notice ∈ o.next)
    (hend : notice.state.isLive = false) :
    o.next = releaseTasks c.session.resources ++ [.notify n notice] ∧
      (⟨move, c, task, o.effects, o.connection⟩ : Entry).Ends n notice := by
  cases h with
  | worker _ _ _ hnext =>
    rcases hnext _ hn with hw | ⟨_, _, _, _, _, he⟩
    · cases hw
    · cases he
  | aside _ _ _ hnext =>
    obtain ⟨_, _, _, he⟩ := hnext _ hn
    cases he
  | failed ha hs =>
    rcases List.mem_append.mp hn with hn | hn
    · exact absurd hn (not_mem_releaseTasks _)
    · cases List.mem_singleton.mp hn
      refine ⟨rfl, ha, (isLive_iff _).mpr (hs.imp_right Or.inl), rfl, ?_, nofun⟩
      rintro e' he
      cases he
      exact ⟨rfl, hs⟩
  | torn ha hs =>
    rcases List.mem_append.mp hn with hn | hn
    · exact absurd hn (not_mem_releaseTasks _)
    · cases List.mem_singleton.mp hn
      exact ⟨rfl, rfl, hs, rfl, nofun, fun _ => ⟨_, rfl⟩⟩
  | letGo => exact absurd hn (not_mem_releaseTasks _)
  | @begun _ permitted =>
    cases permitted <;> simp at hn <;> rw [hn.2] at hend <;> cases hend
  | completed =>
    cases List.mem_singleton.mp hn
    cases hend
  | _ => simp at hn

theorem Turn.starts_no_notice (h : Turn c task o) : ∀ l ∈ o.started, .notify n notice ∉ l := by
  cases h with
  | worker _ _ _ _ hs | aside _ _ _ _ hs => rw [hs]; simp
  | _ => simp

theorem Released.mono (h : Released es l) (e : Entry) : Released (es ++ [e]) l := by
  intro front n notice back hl hend
  obtain ⟨earlier, last, since, rfl, hlast, hall⟩ := h front n notice back hl hend
  refine ⟨earlier, last, since ++ [e], by rw [List.append_assoc, List.cons_append], hlast, ?_⟩
  intro t ht
  refine (hall t ht).imp_right ?_
  rintro ⟨f, hf, htask⟩
  exact ⟨f, List.mem_append_left _ hf, htask⟩

theorem Released.of_none (h : ∀ n notice, .notify n notice ∉ l) : Released es l := by
  rintro front n notice back rfl _
  exact absurd (List.mem_append_right _ (List.mem_cons_self ..)) (h n notice)

/-- A callback stands behind the task that is done, whose own part of the release is done now. -/
theorem Released.behind {e : Entry} {front back : List Task} (h : Released es (task :: rest))
    (he : e.task = task) (hrest : rest = front ++ .notify n notice :: back)
    (hend : notice.state.isLive = false) :
    ∃ earlier last since, es ++ [e] = earlier ++ last :: since ∧ last.Ends n notice ∧
      ∀ t ∈ releaseTasks last.before.session.resources, t ∈ front ∨ ∃ f ∈ since, f.task = t := by
  obtain ⟨earlier, last, since, rfl, hlast, hall⟩ :=
    h (task :: front) n notice back (by rw [hrest, List.cons_append]) hend
  refine ⟨earlier, last, since ++ [e], by rw [List.append_assoc, List.cons_append], hlast, ?_⟩
  intro t ht
  rcases hall t ht with hfront | ⟨f, hf, htask⟩
  · rcases List.mem_cons.mp hfront with rfl | hfront
    · exact Or.inr ⟨e, List.mem_append_right _ (List.mem_singleton_self _), he⟩
    · exact Or.inl hfront
  · exact Or.inr ⟨f, List.mem_append_left _ hf, htask⟩

/-- A task of the thread is done, and what it leaves stands in its place. -/
theorem Released.step (ho : c.exec x task = some o) (h : Released es (task :: rest)) :
    Released (es ++ [⟨move, c, task, o.effects, o.connection⟩]) (o.next ++ rest) := by
  intro front n notice back hl hend
  have hturn := exec_turn ho
  rcases List.append_eq_append_iff.mp hl with ⟨front', rfl, hrest⟩ | ⟨tail, hnext, htail⟩
  · obtain ⟨earlier, last, since, hs, hlast, hall⟩ :=
      h.behind (e := ⟨move, c, task, o.effects, o.connection⟩) rfl hrest hend
    exact ⟨earlier, last, since, hs, hlast,
      fun t ht => (hall t ht).imp_left (List.mem_append_right _)⟩
  · rcases tail with _ | ⟨t, tail⟩
    · have hrest : rest = [] ++ .notify n notice :: back := by simpa using htail.symm
      obtain ⟨earlier, last, since, hs, hlast, hall⟩ :=
        h.behind (e := ⟨move, c, task, o.effects, o.connection⟩) rfl hrest hend
      exact ⟨earlier, last, since, hs, hlast, fun t ht => (hall t ht).imp_left nofun⟩
    · -- The callback is new: the task ended the attempt.
      obtain ⟨rfl, _⟩ := List.cons.inj htail
      obtain ⟨hreleased, hends⟩ := hturn.ends move
        (hnext ▸ List.mem_append_right _ (List.mem_cons_self ..)) hend
      refine ⟨es, _, [], rfl, hends, fun t ht => Or.inl ?_⟩
      rw [hnext] at hreleased
      rcases List.eq_nil_or_concat tail with rfl | ⟨tail, u, rfl⟩
      · rw [(List.append_inj' hreleased rfl).1]
        exact ht
      · rw [List.concat_eq_append, ← List.cons_append, ← List.append_assoc] at hreleased
        have hmem : .notify n notice ∈ releaseTasks c.session.resources := by
          rw [← (List.append_inj' hreleased rfl).1]
          exact List.mem_append_right _ (List.mem_cons_self ..)
        exact absurd hmem (not_mem_releaseTasks _)

theorem released_of_possible {h : History} (hp : h.Possible) :
    ∀ l ∈ h.machine.threads, Released h.entries l := by
  obtain ⟨device, config, prober, moves, rfl⟩ := hp
  refine History.every_thread (Q := Released) (fun h => h.mono _) ?_ ?_ moves
  · intro es d others move task hb
    refine .of_none fun n notice hmem => ?_
    cases List.mem_singleton.mp hmem
    cases hb
  · intro es d task rest move x o ho h l hl
    rcases List.mem_cons.mp hl with rfl | hl
    · exact h.step ho
    · exact .of_none fun n notice => (exec_turn ho).starts_no_notice l hl

/-- Where the last callback of an attempt is made, all that was owned at its end has been given
back. -/
theorem released_of_callback {h : History} {e : Entry} {m' : Machine} (hp : h.Possible)
    (hm : h.machine.move move = some (e, m')) (told : .notified n notice ∈ e.effects)
    (hend : notice.state.isLive = false) :
    ∃ earlier last since, h.entries = earlier ++ last :: since ∧ last.Ends n notice ∧
      ∀ t ∈ releaseTasks last.before.session.resources, ∃ f ∈ since, f.task = t := by
  obtain ⟨source, head, ran, rfl, rfl⟩ := advances_of_move hm
  rename_i threads thread task rest o
  have hall : ∀ l ∈ threads, Released h.entries l :=
    every_source source (released_of_possible hp) fun hb => .of_none fun n notice hmem => by
      cases List.mem_singleton.mp hmem
      cases hb
  obtain ⟨rfl, _⟩ := told_alone (exec_turn ran) told
  obtain ⟨earlier, last, since, hsplit, hlast, hback⟩ :=
    hall _ (List.mem_of_getElem? head) [] n notice rest rfl hend
  exact ⟨earlier, last, since, hsplit, hlast, fun t ht => by simpa using hback t ht⟩

end Released

/-! ## What an attempt comes to own -/

/-- Everything that is owned in `r` is owned in `s`. -/
structure Within (r s : Resources) : Prop where
  drain : ∀ k, r.drain = some k → s.drain = some k
  reader : ∀ k, r.reader = some k → s.reader = some k
  subscription : ∀ k, r.subscription = some k → s.subscription = some k
  port : ∀ k, r.port = some k → s.port = some k

/-- The session owned this at some time, for attempt `n`. -/
def Held (es : List Entry) (n : Nat) (r : Resources) : Prop :=
  ∃ f ∈ es, f.after.session.attempt = n ∧ f.after.session.resources = r

/-- What is known of the resources of a session from what happened. -/
structure Gathered (es : List Entry) (c : Connection) : Prop where
  early : ∀ f ∈ es, f.after.session.attempt ≤ c.session.attempt
  /-- An attempt under way has all that was recorded for it. -/
  whole : c.dropped = false → c.session.state.isLive = true →
    ∀ r, Held es c.session.attempt r → Within r c.session.resources
  /-- The subscription was made for the attempt under way. -/
  made : ∀ k, c.session.resources.subscription = some k →
    ∃ f ∈ es, .subscribed k ∈ f.effects ∧ f.after.session.attempt = c.session.attempt

section Gathered

variable {es : List Entry} {c : Connection} {others : Multiset Task} {task : Task} {o : Outcome}
  {move : Move} {r s : Resources}

theorem Within.refl (r : Resources) : Within r r := ⟨fun _ h => h, fun _ h => h, fun _ h => h,
  fun _ h => h⟩

theorem Within.trans {t : Resources} (h : Within r s) (h' : Within s t) : Within r t :=
  ⟨fun k hk => h'.drain k (h.drain k hk), fun k hk => h'.reader k (h.reader k hk),
    fun k hk => h'.subscription k (h.subscription k hk), fun k hk => h'.port k (h.port k hk)⟩

theorem Within.nothing (s : Resources) : Within {} s := ⟨nofun, nofun, nofun, nofun⟩

/-- A step adds to what an attempt under way owns, or a newer attempt begins. -/
theorem Turn.gathers (h : Turn c task o) (hp : Poised c others task)
    (held : o.connection.dropped = false) (hlive : o.connection.session.state.isLive = true) :
    c.session.attempt < o.connection.session.attempt ∨
      o.connection.session.attempt = c.session.attempt ∧ c.dropped = false ∧
        c.session.state.isLive = true ∧
        Within c.session.resources o.connection.session.resources := by
  have hsame : ∀ {d : Connection}, d.session = c.session → d.dropped = c.dropped →
      d.dropped = false → d.session.state.isLive = true →
      c.session.attempt < d.session.attempt ∨
        d.session.attempt = c.session.attempt ∧ c.dropped = false ∧
          c.session.state.isLive = true ∧ Within c.session.resources d.session.resources := by
    intro d hs hd held hlive
    rw [hs] at hlive ⊢
    exact Or.inr ⟨rfl, hd ▸ held, hlive, .refl _⟩
  cases h with
  | worker _ hc | aside _ hc => exact hsame hc.session hc.dropped held hlive
  | begun => exact Or.inl (Nat.lt_succ_self _)
  | granted _ hwait => exact Or.inr ⟨rfl, held, by rw [hwait]; rfl, .refl _⟩
  | portRecorded hc =>
    have hnone : ∀ k, c.session.resources.port ≠ some k := by simp [(hp.fits rfl hc).1.1]
    exact Or.inr ⟨rfl, held, hlive, fun _ h => h, fun _ h => h, fun _ h => h,
      fun k h => absurd h (hnone k)⟩
  | readerRecorded hc =>
    have hnone : ∀ k, c.session.resources.reader ≠ some k := by simp [(hp.fits rfl hc).1.2]
    exact Or.inr ⟨rfl, held, hlive, fun _ h => h, fun k h => absurd h (hnone k), fun _ h => h,
      fun _ h => h⟩
  | completed hc =>
    have hnone : ∀ k, c.session.resources.drain ≠ some k := by simp [(hp.fits rfl hc).2]
    have hlive' : c.session.state.isLive = true := by rw [((isConnecting_iff _ _).mp hc).2]; rfl
    exact Or.inr ⟨rfl, held, hlive', fun k h => absurd h (hnone k), fun _ h => h, fun _ h => h,
      fun _ h => h⟩
  | failed | torn =>
    rw [ended_session] at hlive
    cases hlive
  | letGo => cases held
  | _ => exact hsame rfl rfl held hlive

theorem Turn.subscription (h : Turn c task o) {k : Nat}
    (hk : o.connection.session.resources.subscription = some k) :
    c.session.resources.subscription = some k ∧
        o.connection.session.attempt = c.session.attempt ∨ .subscribed k ∈ o.effects := by
  cases h with
  | worker _ hc | aside _ hc => exact Or.inl (by rw [← hc.session]; exact ⟨hk, rfl⟩)
  | begun =>
    cases hk
    exact Or.inr (List.mem_singleton_self _)
  | failed | torn =>
    rw [ended_session] at hk
    cases hk
  | letGo =>
    rw [show ({ c.takeResources.2 with dropped := true } : Connection).session =
      c.takeResources.2.session from rfl, takeResources_session] at hk
    cases hk
  | _ => exact Or.inl ⟨hk, rfl⟩

theorem Gathered.step {x : Outside} (ho : c.exec x task = some o) (hp : Poised c others task)
    (h : Gathered es c) :
    Gathered (es ++ [⟨move, c, task, o.effects, o.connection⟩]) o.connection := by
  have hturn := exec_turn ho
  have hle := hturn.attempt_le
  have hlast : (⟨move, c, task, o.effects, o.connection⟩ : Entry) ∈
      es ++ [⟨move, c, task, o.effects, o.connection⟩] :=
    List.mem_append_right _ (List.mem_singleton_self _)
  refine ⟨?_, ?_, ?_⟩
  · intro f hf
    rcases List.mem_append.mp hf with hf | hf
    · exact Nat.le_trans (h.early f hf) hle
    · exact List.mem_singleton.mp hf ▸ Nat.le_refl _
  · rintro held hlive r ⟨f, hf, ha, rfl⟩
    rcases List.mem_append.mp hf with hf | hf
    · rcases hturn.gathers hp held hlive with hlt | ⟨hsame, held', hlive', hwithin⟩
      · have := h.early f hf
        omega
      · exact (h.whole held' hlive' _ ⟨f, hf, ha.trans hsame, rfl⟩).trans hwithin
    · exact List.mem_singleton.mp hf ▸ .refl _
  · intro k hk
    rcases hturn.subscription hk with ⟨hk', hsame⟩ | hnew
    · obtain ⟨f, hf, heffect, ha⟩ := h.made k hk'
      exact ⟨f, List.mem_append_left _ hf, heffect, ha.trans hsame.symm⟩
    · exact ⟨_, hlast, hnew, rfl⟩

theorem gathered_of_possible {h : History} (hp : h.Possible) :
    Gathered h.entries h.machine.connection := by
  obtain ⟨device, config, prober, moves, rfl⟩ := hp
  refine (History.guarded_induction (I := fun es c _ => Gathered es c)
    ⟨by simp, ?_, nofun⟩ ?_ moves).1
  · rintro _ _ r ⟨f, hf, _⟩
    cases hf
  · exact fun ho hp hsource => (hsource.elim id And.left).step ho hp

end Gathered

end SerialLink.Connection
