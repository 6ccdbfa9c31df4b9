-- The way of a slice from the read that brought it to the checker. An attempt
-- that begins and ends while nothing is under way has each slice shown that its
-- reader read, in the order of the reads, and none of another attempt.
import SerialLink.Proofs.Connection.Overtaken
import SerialLink.Proofs.Connection.Quiescence

namespace SerialLink.Connection

/-! ## Slices -/

/-- The slice that was read by the reader that the session owns. -/
def Entry.slice (e : Entry) : Option Bytes :=
  if e.task.reader = e.before.session.resources.reader then e.brought else none

/-- An attempt starts with this step. -/
def Entry.starts (e : Entry) : Bool := e.before.session.attempt != e.after.session.attempt

/-- The slices that the session's reader read, in order. -/
def slices (es : List Entry) : List Bytes := es.filterMap Entry.slice

/-- What happened since an attempt was started last. -/
def latest (es : List Entry) : List Entry := es.rtakeWhile fun e => !e.starts

section OneStep

variable {es : List Entry} {c : Connection} {move : Move} {task t : Task} {o : Outcome}
  {others : Multiset Task} {bytes : Bytes} {k n : Nat}

/-! ## Steps that bring a slice -/

/-- A read brings a slice or no bytes. -/
theorem bytes_of_reading {r r' : Reader Nat} {answer : Nat → Option (Except PortError Bytes)}
    {next : Reader.Next Nat} (h : r.step answer .reading = some (next, r')) :
    (∃ bytes, next = .goto (.received bytes) ∧
        (answer r.size).bind Reader.slice? = some bytes) ∨
      ∃ point, next = .goto point ∧ hasNone point ∧
        (answer r.size).bind Reader.slice? = none := by
  unfold Reader.step at h
  dsimp only at h
  split at h <;> cases h
  · rename_i he
    exact Or.inr ⟨_, rfl, rfl, by rw [he]; rfl⟩
  · rename_i bytes hne he
    refine Or.inl ⟨bytes, rfl, ?_⟩
    rw [he, Option.bind_some]
    cases bytes with
    | nil => exact absurd rfl hne
    | cons => rfl
  · rename_i he
    exact Or.inr ⟨_, rfl, rfl, by rw [he]; rfl⟩

theorem brought_of_other {e : Entry} (h : ∀ k, e.task ≠ .read k .reading) : e.brought = none := by
  unfold Entry.brought Entry.answer
  split
  · exact absurd ‹_› (h _)
  · rfl

theorem brought_of_read {e : Entry} {a : AttemptReader} (h : e.task = .read k .reading)
    (ha : e.before.readers[k]? = some a) :
    e.brought = (e.move.outside.read a.port a.reader.size).bind Reader.slice? := by
  rw [Entry.brought, answer_of_read h ha]

/-- A slice that was read is in the hands of the read thread. -/
theorem read_of_brought (ho : c.exec move.outside task = some o)
    (hb : (⟨move, c, task, o.effects, o.connection⟩ : Entry).brought = some bytes) :
    ∃ k, task = .read k .reading ∧ o.next = [.read k (.received bytes)] ∧ o.started = [] ∧
      o.connection.session = c.session := by
  by_cases hr : ∃ k, task = .read k .reading
  · obtain ⟨k, rfl⟩ := hr
    obtain ⟨a, next, reader, ha, hs, rfl⟩ := stepRead_eq ho
    rw [brought_of_read rfl ha] at hb
    rcases bytes_of_reading hs with ⟨bytes', rfl, hb'⟩ | ⟨_, rfl, _, hb'⟩
    · rw [hb', Option.some.injEq] at hb
      subst hb
      exact ⟨k, rfl, rfl, rfl, rfl⟩
    · rw [hb'] at hb
      cases hb
  · rw [brought_of_other fun k he => hr ⟨k, he⟩] at hb
    cases hb

/-- What a read thread goes on with where no slice was brought. -/
inductive GoesOn (c : Connection) (k : Nat) : Reader.Point Nat → Task → Prop
  | none {point next : Reader.Point Nat} (h : hasNone next) : GoesOn c k point (.read k next)
  | fetched {n : Nat} {bytes : Bytes} (h : Listens c k n) :
    GoesOn c k (.received bytes) (.read k (.delivering n bytes))
  | handed {n : Nat} {bytes : Bytes} : GoesOn c k (.delivering n bytes) (.accept n bytes)
  | torn {n : Nat} {e : PortError} : GoesOn c k (.telling n e) (.teardown (some n))

theorem goesOn_of_read {point : Reader.Point Nat} (ho : c.stepRead move.outside k point = some o)
    (hb : (⟨move, c, .read k point, o.effects, o.connection⟩ : Entry).brought = none) :
    ∀ t ∈ o.next, GoesOn c k point t := by
  obtain ⟨a, next, reader, ha, hs, rfl⟩ := stepRead_eq ho
  cases hands_of_step hs with
  | brought =>
    rw [brought_of_read rfl ha] at hb
    rcases bytes_of_reading hs with ⟨_, _, hb'⟩ | ⟨_, hnext, hp, _⟩
    · rw [hb] at hb'
      cases hb'
    · cases hnext
      cases hp
  | fetched hl => exact List.forall_mem_singleton.mpr (.fetched ⟨a, ha, hl⟩)
  | handed => exact List.forall_mem_cons.mpr ⟨.handed, List.forall_mem_singleton.mpr (.none rfl)⟩
  | told =>
    refine List.forall_mem_append.mpr ⟨?_, List.forall_mem_singleton.mpr (.none rfl)⟩
    by_cases hd : c.dropped = true
    · simp [hd]
    · rw [if_neg hd]
      exact List.forall_mem_singleton.mpr .torn
  | gone => exact fun t ht => absurd ht List.not_mem_nil
  | none hnext => exact List.forall_mem_singleton.mpr (.none hnext)

/-! ## Tasks that come to no slice -/

/-- The task leads to no slice that is shown, because it has none or nobody listens to its
reader. -/
def Clear (c : Connection) : Task → Prop
  | .read k (.received _) => Deaf c k
  | .read _ (.delivering ..) | .accept .. | .check _ => False
  | _ => True

theorem clear_of_still (h : t.stirs = false) : Clear c t := by
  cases t with
  | read k point => cases point <;> trivial
  | _ => trivial

theorem Clear.stay (h : Clear c t) (ho : c.exec move.outside task = some o) :
    Clear o.connection t := by
  cases t with
  | read k point =>
    cases point with
    | received => exact Deaf.step h ho
    | _ => exact h
  | _ => exact h

theorem shows_of_clear (h : Clear c t) : t.shows = none := by
  cases t <;> first | rfl | cases h

/-- Behind a task that comes to no slice none is under way, unless a read brought one. -/
theorem clear_of_exec (ho : c.exec move.outside task = some o) (h : Clear c task)
    (hb : (⟨move, c, task, o.effects, o.connection⟩ : Entry).brought = none) :
    ∀ t ∈ (o.next : Multiset Task) + (o.started.flatten : Multiset Task),
      Clear o.connection t := by
  refine leaves_of_exec ho ?_ (fun _ => trivial) (fun _ => trivial) ?_ ?_
  · intro t hw
    cases t <;> trivial
  · rintro k point rfl hr t ht
    cases goesOn_of_read hr hb t ht with
    | none hnext => exact clear_of_still (by rw [Task.stirs, hnext]; rfl)
    | fetched hl => exact absurd hl ((deaf_iff.mp h).2 _)
    | handed => cases h
    | torn => trivial
  · intro t hp
    cases hp with
    | check | enqueue => cases h
    | _ => trivial

/-! ## Tasks that leave a calm connection calm -/

theorem still_of_worker (ho : c.exec move.outside task = some o) (hw : task.isWorker)
    (h : task.stirs = false)
    (hb : (⟨move, c, task, o.effects, o.connection⟩ : Entry).brought = none) :
    ∀ t ∈ o.next, t.stirs = false := by
  intro t ht
  by_cases hr : ∃ k point, task = .read k point
  · obtain ⟨k, point, rfl⟩ := hr
    cases goesOn_of_read ho hb t ht with
    | none hnext => rw [Task.stirs, hnext]; rfl
    | fetched | handed => cases h
    | torn => rfl
  · cases passesOn_of_worker ho hw (fun k point he => hr ⟨k, point, he⟩) t ht with
    | check | enqueue => cases h
    | _ => rfl

/-- While the session owns a reader, and goes on owning it, what does not stir leaves nothing that
does, unless a read brought a slice. -/
theorem still_of_exec (ho : c.exec move.outside task = some o) (hp : Poised c others task)
    (h : task.stirs = false)
    (hb : (⟨move, c, task, o.effects, o.connection⟩ : Entry).brought = none)
    (hk : c.session.resources.reader = some k)
    (hk' : o.connection.session.resources.reader = some k) :
    ∀ t ∈ (o.next : Multiset Task) + (o.started.flatten : Multiset Task), t.stirs = false := by
  have hgone : o.connection.session.resources.reader = none →
      ∀ t ∈ (o.next : Multiset Task) + (o.started.flatten : Multiset Task), t.stirs = false := by
    intro hnone
    rw [hnone] at hk'
    cases hk'
  cases exec_turn ho with
  | worker hw _ _ _ hs =>
    intro t ht
    rw [hs, mem_leaves] at ht
    exact still_of_worker ho hw h hb t ht
  | aside _ _ _ hn hs => exact leaves_of_aside hn hs fun _ _ _ => rfl
  | begun hrest =>
    rw [hp.at_rest hrest] at hk
    cases hk
  | portRecorded hc =>
    have hfits := (hp.fits rfl hc).1.2
    rw [hk] at hfits
    cases hfits
  | failed | torn => exact hgone (by simp)
  | letGo => exact hgone (by simp)
  | configuring | configured => cases h
  | _ => simp [Task.stirs, hasNone]

/-! ## A slice on its way -/

/-- A slice that the session's reader read and that is yet to be shown. -/
inductive InHand (c : Connection) : Task → Bytes → Prop
  | received {k : Nat} {bytes : Bytes} (h : c.session.resources.reader = some k) :
    InHand c (.read k (.received bytes)) bytes
  | delivering {k : Nat} {bytes : Bytes} :
    InHand c (.read k (.delivering c.session.attempt bytes)) bytes
  | accepting {bytes : Bytes} : InHand c (.accept c.session.attempt bytes) bytes
  | checking {bytes : Bytes} : InHand c (.check bytes) bytes

theorem InHand.stirs (h : InHand c t bytes) : t.stirs = true := by
  cases h <;> rfl

theorem InHand.mono {d : Connection} (h : InHand c t bytes)
    (ha : d.session.attempt = c.session.attempt)
    (hr : d.session.resources.reader = c.session.resources.reader) : InHand d t bytes := by
  cases h with
  | received hk => exact .received (hr.trans hk)
  | delivering =>
    rw [← ha]
    exact .delivering
  | accepting =>
    rw [← ha]
    exact .accepting
  | checking => exact .checking

/-- A slice goes on to the checker while the session hears its reader. -/
theorem InHand.step (h : InHand c task bytes) (ho : c.exec move.outside task = some o)
    (htuned : Tuned c (task ::ₘ others)) (held : c.dropped = false)
    (feeding : c.feeding = c.session.attempt) :
    o.started = [] ∧
      ((∃ t rest, o.next = t :: rest ∧ InHand c t bytes ∧ ∀ u ∈ rest, u.stirs = false) ∧
          task.shows = none ∨
        o.next = [] ∧ task.shows = some bytes) := by
  cases h with
  | received hk =>
    obtain ⟨a, next, reader, ha, hs, rfl⟩ := stepRead_eq ho
    obtain ⟨a', ha', hl⟩ := (htuned.owned _ hk).1
    rw [ha, Option.some.injEq] at ha'
    subst ha'
    unfold Reader.step at hs
    simp only [hl, Option.some.injEq, Prod.mk.injEq] at hs
    rw [← hs.1]
    exact ⟨rfl, Or.inl ⟨⟨_, [], rfl, .delivering, by simp⟩, rfl⟩⟩
  | delivering =>
    obtain ⟨a, next, reader, ha, hs, rfl⟩ := stepRead_eq ho
    cases hs
    exact ⟨rfl, Or.inl ⟨⟨_, _, rfl, .accepting, by simp [Task.stirs, hasNone]⟩, rfl⟩⟩
  | accepting =>
    simp only [exec, Option.some.injEq] at ho
    subst ho
    unfold stepAccept
    rw [if_pos ⟨by simp [held], feeding⟩]
    exact ⟨rfl, Or.inl ⟨⟨_, _, rfl, .checking, by simp [Task.stirs]⟩, rfl⟩⟩
  | checking =>
    simp only [exec, Option.some.injEq] at ho
    subst ho
    unfold stepCheck
    split <;> exact ⟨rfl, Or.inr ⟨rfl, rfl⟩⟩

/-! ## One step of a connection that is not hurried -/

/-- The attempt that a task sets the line parameters or the marker for. -/
def Task.readies : Task → Option Nat
  | .setParameters n .. | .parametersSet n .. | .startFeeding n => some n
  | _ => none

theorem stirs_of_readies (h : t.readies = some n) : t.stirs = true := by
  cases t <;> first | rfl | cases h

/-- What was shown of the latest attempt is what was read, but for a slice that is on its way. -/
inductive Passing (es : List Entry) (c : Connection) (P : Multiset Task) : Prop
  | idle (clear : ∀ t ∈ P, Clear c t) (same : chunksShown (latest es) = slices (latest es))
  | busy {t : Task} {rest : Multiset Task} {bytes : Bytes} {k : Nat} (split : P = t ::ₘ rest)
    (hand : InHand c t bytes) (still : ∀ u ∈ rest, u.stirs = false)
    (owned : c.session.resources.reader = some k)
    (same : chunksShown (latest es) ++ [bytes] = slices (latest es))

/-- What is known of a connection that is not hurried. -/
structure Flowing (es : List Entry) (c : Connection) (P : Multiset Task) : Prop where
  /-- Only for the attempt under way is the marker set. -/
  timely : ∀ t ∈ P, ∀ n, t.readies = some n → n = c.session.attempt
  marked : ∀ e ∈ es, ∀ n, e.task = .startFeeding n → n = e.before.session.attempt
  /-- Nothing is shown before the checker is made anew. -/
  fresh : .resetChecker ∈ P → c.session.state.isLive = true ∧ chunksShown (latest es) = []
  checked : .resetChecker ∉ P → (∃ e ∈ es, e.starts = true) → c.checker =
    c.config.diagnostics.map fun layout => checkAll (chunksShown (latest es)) (.new layout)
  passing : Passing es c P

/-- A session that owns a reader lets in what the reader reads. -/
structure Hears (c : Connection) : Prop where
  live : ∀ k, c.session.resources.reader = some k → c.session.state.isLive = true
  held : ∀ k, c.session.resources.reader = some k → c.dropped = false
  feeding : ∀ k, c.session.resources.reader = some k → c.feeding = c.session.attempt

/-- What a step does that starts an attempt. -/
theorem Turn.starts (h : Turn c task o) (hs : c.session.attempt ≠ o.connection.session.attempt) :
    task = .connect ∧ c.session.state.isLive = false ∧
      o.connection.session.state.isLive = true ∧ o.started = [] ∧ .resetChecker ∈ o.next ∧
      ∀ t ∈ o.next, t = .resetChecker ∨ t.stirs = false := by
  have hsame : o.connection.session.attempt = c.session.attempt →
      task = .connect ∧ c.session.state.isLive = false ∧
        o.connection.session.state.isLive = true ∧ o.started = [] ∧ .resetChecker ∈ o.next ∧
        ∀ t ∈ o.next, t = .resetChecker ∨ t.stirs = false :=
    fun ha => absurd ha.symm hs
  cases h with
  | worker _ hc | aside _ hc => exact hsame (by rw [hc.session])
  | @begun _ permitted hrest =>
    refine ⟨rfl, hrest, ?_, rfl, List.mem_cons_self .., ?_⟩ <;> cases permitted <;>
      simp [ConnectionState.isLive, Task.stirs]
  | failed | torn => exact hsame (by rw [ended_session])
  | letGo => exact hsame (by rw [takeResources_session])
  | _ => exact hsame rfl

theorem Turn.readies (h : Turn c task o)
    (ht : t ∈ (o.next : Multiset Task) + (o.started.flatten : Multiset Task))
    (hn : t.readies = some n) : task.readies = some n ∨ n = c.session.attempt := by
  have hno : t.readies = none → task.readies = some n ∨ n = c.session.attempt := by
    intro hnone
    rw [hnone] at hn
    cases hn
  have hrelease : ∀ t : Task, t.isRelease → t.readies = none := by
    intro t hr
    cases t <;> first | rfl | cases hr
  cases h with
  | worker _ _ _ hn' hs =>
    refine hno (leaves_of_worker (q := fun t => t.readies = none) hn' hs ?_ (fun _ _ => rfl) t ht)
    intro t hw
    cases t <;> first | rfl | cases hw
  | aside _ _ _ hn' hs =>
    exact hno (leaves_of_aside (q := fun t => t.readies = none) hn' hs (fun _ _ _ => rfl) t ht)
  | failed | torn => exact hno (leaves_of_end hrelease rfl t ht)
  | letGo => exact hno (leaves_of_drop hrelease t ht)
  | portRecorded hc =>
    cases mem_leaves_one.mp ht
    cases hn
    exact Or.inr ((isConnecting_iff _ _).mp hc).1.symm
  | configuring =>
    cases mem_leaves_one.mp ht
    exact Or.inl hn
  | configured =>
    rw [mem_leaves] at ht
    simp only [List.mem_cons, List.not_mem_nil, or_false] at ht
    rcases ht with rfl | rfl | rfl
    · cases hn
    · exact Or.inl hn
    · cases hn
  | @begun _ permitted =>
    rw [mem_leaves] at ht
    cases permitted <;> simp at ht <;> rcases ht with rfl | rfl | rfl | rfl <;> exact hno rfl
  | _ =>
    simp only [List.flatten_nil, List.flatten_cons, List.append_nil, Multiset.coe_nil,
      Multiset.add_zero, Multiset.mem_add, Multiset.mem_coe, List.mem_cons, List.not_mem_nil,
      or_false] at ht
    rcases ht with rfl | rfl <;> exact hno rfl

theorem latest_of_start {e : Entry} (h : e.starts = true) : latest (es ++ [e]) = [] := by
  unfold latest
  rw [List.rtakeWhile_concat_neg]
  simp [h]

theorem latest_snoc {e : Entry} (h : e.starts = false) :
    latest (es ++ [e]) = latest es ++ [e] := by
  unfold latest
  rw [List.rtakeWhile_concat_pos]
  simp [h]

theorem slices_append (es fs : List Entry) : slices (es ++ fs) = slices es ++ slices fs :=
  List.filterMap_append ..

theorem slices_singleton (e : Entry) : slices [e] = e.slice.toList := by
  unfold slices
  rcases h : e.slice with _ | bytes <;> simp [h]

theorem slice_of_none {e : Entry} (h : e.brought = none) : e.slice = none := by
  unfold Entry.slice
  rw [h]
  exact ite_self _

theorem starts_eq_false {e : Entry} :
    e.starts = false ↔ e.before.session.attempt = e.after.session.attempt :=
  bne_eq_false_iff_eq

theorem shown_snoc {e : Entry} (h : e.starts = false) :
    chunksShown (latest (es ++ [e])) = chunksShown (latest es) ++ e.task.shows.toList := by
  rw [latest_snoc h, chunksShown_append, chunksShown_singleton]

theorem slices_snoc {e : Entry} (h : e.starts = false) :
    slices (latest (es ++ [e])) = slices (latest es) ++ e.slice.toList := by
  rw [latest_snoc h, slices_append, slices_singleton]

section Flow

variable {e : Entry}

/-- Where no slice is on its way, a read of the session's reader may bring one. -/
theorem Passing.step_idle (he : e = ⟨move, c, task, o.effects, o.connection⟩)
    (hs : e.starts = false) (ho : c.exec move.outside task = some o)
    (htuned : Tuned c (task ::ₘ others))
    (hcalm : e.turns = true → ∀ t ∈ task ::ₘ others, t.stirs = false)
    (clear : ∀ t ∈ task ::ₘ others, Clear c t)
    (same : chunksShown (latest es) = slices (latest es)) :
    Passing (es ++ [e]) o.connection
      ((o.next : Multiset Task) + (o.started.flatten : Multiset Task) + others) := by
  have hothers : ∀ t ∈ others, Clear o.connection t :=
    fun t ht => (clear t (Multiset.mem_cons_of_mem ht)).stay ho
  have hshows : e.task.shows = none := by
    rw [he]
    exact shows_of_clear (clear task (Multiset.mem_cons_self ..))
  have hshown : chunksShown (latest (es ++ [e])) = chunksShown (latest es) := by
    rw [shown_snoc hs, hshows]
    exact List.append_nil _
  rcases hb : e.brought with _ | bytes
  · refine .idle ?_ ?_
    · intro t ht
      rcases Multiset.mem_add.mp ht with ht | ht
      · exact clear_of_exec ho (clear task (Multiset.mem_cons_self ..)) (he ▸ hb) t ht
      · exact hothers t ht
    · rw [hshown, slices_snoc hs, slice_of_none hb, same]
      exact (List.append_nil _).symm
  · have hturns : e.turns = true := by
      unfold Entry.turns
      rw [hb]
      simp
    obtain ⟨k, rfl, hnext, hstarted, hsession⟩ := read_of_brought ho (he ▸ hb)
    have hslice : e.slice =
        if some k = c.session.resources.reader then some bytes else none := by
      rw [← hb, he]
      rfl
    rw [hnext, hstarted]
    by_cases hown : c.session.resources.reader = some k
    · refine @Passing.busy _ _ _ (.read k (.received bytes)) others bytes k
        ?_ (.received ?_) ?_ ?_ ?_
      · simp
      · rw [hsession, hown]
      · exact fun u hu => hcalm hturns u (Multiset.mem_cons_of_mem hu)
      · rw [hsession, hown]
      · rw [hshown, slices_snoc hs, hslice, if_pos hown.symm, same]
        rfl
    · -- The reader was given back, and its listener is cleared.
      have hdeaf : Deaf c k := by
        rcases htuned.deaf _ (Multiset.mem_cons_self ..) k rfl with hk | hk | hk
        · exact absurd hk hown
        · cases hcalm hturns _ hk
        · exact hk
      refine .idle ?_ ?_
      · intro t ht
        rcases Multiset.mem_add.mp ht with ht | ht
        · cases mem_leaves_one.mp ht
          exact hdeaf.step ho
        · exact hothers t ht
      · rw [hshown, slices_snoc hs, hslice, if_neg fun hk => hown hk.symm, same]
        exact (List.append_nil _).symm

theorem turns_eq_false (h : e.turns = false) :
    e.before.session.state.isLive = e.after.session.state.isLive ∧
      e.before.dropped = e.after.dropped ∧ e.brought = none := by
  unfold Entry.turns at h
  simp only [Bool.or_eq_false_iff, bne_eq_false_iff_eq, Option.isSome_eq_false_iff,
    Option.isNone_iff_eq_none] at h
  exact ⟨h.1.1, h.1.2, h.2⟩

/-- A slice that is on its way is shown before anything else turns. -/
theorem Passing.step_busy {rest : Multiset Task}
    (he : e = ⟨move, c, task, o.effects, o.connection⟩) (hs : e.starts = false)
    (ho : c.exec move.outside task = some o) (hp : Poised c others task)
    (htuned : Tuned c (task ::ₘ others)) (hears : Hears c)
    (hcalm : e.turns = true → ∀ t ∈ task ::ₘ others, t.stirs = false)
    (split : task ::ₘ others = t ::ₘ rest) (hand : InHand c t bytes)
    (still : ∀ u ∈ rest, u.stirs = false) (owned : c.session.resources.reader = some k)
    (same : chunksShown (latest es) ++ [bytes] = slices (latest es)) :
    Passing (es ++ [e]) o.connection
      ((o.next : Multiset Task) + (o.started.flatten : Multiset Task) + others) := by
  have hturns : e.turns = false := by
    refine eq_false_of_ne_true fun ht => ?_
    have hstill := hcalm ht t (split ▸ Multiset.mem_cons_self ..)
    rw [hand.stirs] at hstill
    cases hstill
  obtain ⟨hlive, hdropped, hbrought⟩ := turns_eq_false hturns
  have hattempt : c.session.attempt = o.connection.session.attempt :=
    starts_eq_false.mp (he ▸ hs)
  have howned : o.connection.session.resources.reader = some k := by
    rcases (exec_turn ho).keeps_reader hp owned with hk | ⟨_, hk | hk⟩
    · exact hk
    · rw [he] at hlive
      rw [← hlive, hears.live k owned] at hk
      cases hk
    · rw [he] at hdropped
      rw [← hdropped, hears.held k owned] at hk
      cases hk
  have hmono : ∀ {u}, InHand c u bytes → InHand o.connection u bytes :=
    fun hu => hu.mono hattempt.symm (howned.trans owned.symm)
  have hslices : slices (latest (es ++ [e])) = slices (latest es) := by
    rw [slices_snoc hs, slice_of_none hbrought]
    exact List.append_nil _
  have hshown : chunksShown (latest (es ++ [e])) =
      chunksShown (latest es) ++ task.shows.toList := by
    rw [shown_snoc hs, he]
  -- Either this step takes the slice on, or some other task goes first, and that does not stir.
  rcases Multiset.cons_eq_cons.mp split with ⟨rfl, rfl⟩ | ⟨_, rest', rfl, rfl⟩
  · obtain ⟨hstarted, ⟨⟨t', more, hnext, hand', hmore⟩, hshows⟩ | ⟨hnext, hshows⟩⟩ :=
      hand.step ho htuned (hears.held k owned) (hears.feeding k owned)
    · refine @Passing.busy _ _ _ t' ((more : Multiset Task) + others) bytes k
        ?_ (hmono hand') ?_ howned ?_
      · rw [hnext, hstarted]
        simp [← Multiset.cons_coe]
      · intro u hu
        rcases Multiset.mem_add.mp hu with hu | hu
        · exact hmore u hu
        · exact still u hu
      · rw [hshown, hslices, hshows, ← same, Option.toList_none, List.append_nil]
    · refine .idle ?_ ?_
      · rw [hnext, hstarted]
        intro u hu
        exact clear_of_still (still u (by simpa using hu))
      · rw [hshown, hslices, hshows]
        exact same
  · have htask : task.stirs = false := still task (Multiset.mem_cons_self ..)
    refine @Passing.busy _ _ _ t
      ((o.next : Multiset Task) + (o.started.flatten : Multiset Task) + rest') bytes k
      ?_ (hmono hand) ?_ howned ?_
    · rw [Multiset.add_cons]
    · intro u hu
      rcases Multiset.mem_add.mp hu with hu | hu
      · exact still_of_exec ho hp htask (he ▸ hbrought) owned howned u hu
      · exact still u (Multiset.mem_cons_of_mem hu)
    · rw [hshown, hslices, shows_of_clear (clear_of_still (c := c) htask), ← same,
        Option.toList_none, List.append_nil]

theorem still_of_begins (hb : Begins c others move task) : task.stirs = false := by
  cases hb <;> rfl

/-- What stirs was there before a thread begins. -/
theorem mem_of_begins (hb : Begins c others move task) (ht : t.stirs = true) :
    t ∈ task ::ₘ others ↔ t ∈ others := by
  refine ⟨fun hmem => ?_, Multiset.mem_cons_of_mem⟩
  rcases Multiset.mem_cons.mp hmem with rfl | hmem
  · rw [still_of_begins hb] at ht
    cases ht
  · exact hmem

/-- A new thread begins with no slice. -/
theorem Flowing.begin (h : Flowing es c others) (hb : Begins c others move task) :
    Flowing es c (task ::ₘ others) := by
  have hstill := still_of_begins hb
  have hreset : .resetChecker ∈ task ::ₘ others ↔ .resetChecker ∈ others := mem_of_begins hb rfl
  refine ⟨?_, h.marked, fun hmem => h.fresh (hreset.mp hmem),
    fun hno => h.checked fun hmem => hno (hreset.mpr hmem), ?_⟩
  · exact fun t ht n hn => h.timely t ((mem_of_begins hb (stirs_of_readies hn)).mp ht) n hn
  · cases h.passing with
    | idle clear same =>
      refine .idle (fun t ht => ?_) same
      rcases Multiset.mem_cons.mp ht with rfl | ht
      · exact clear_of_still hstill
      · exact clear t ht
    | busy split hand still owned same =>
      refine .busy (by rw [split, Multiset.cons_swap]) hand (fun u hu => ?_) owned same
      rcases Multiset.mem_cons.mp hu with rfl | hu
      · exact hstill
      · exact still u hu

theorem Flowing.marked_on (h : Flowing es c (task ::ₘ others))
    (he : e = ⟨move, c, task, o.effects, o.connection⟩) :
    ∀ f ∈ es ++ [e], ∀ n, f.task = .startFeeding n → n = f.before.session.attempt := by
  intro f hf n hn
  rcases List.mem_append.mp hf with hf | hf
  · exact h.marked f hf n hn
  · rw [List.mem_singleton.mp hf, he] at hn ⊢
    dsimp only at hn ⊢
    exact h.timely task (Multiset.mem_cons_self ..) n (by rw [hn]; rfl)

/-- An attempt starts where nothing is under way, and makes the checker anew. -/
theorem Flowing.step_start (h : Flowing es c (task ::ₘ others))
    (he : e = ⟨move, c, task, o.effects, o.connection⟩) (hs : e.starts = true)
    (ho : c.exec move.outside task = some o)
    (hcalm : e.turns = true → ∀ t ∈ task ::ₘ others, t.stirs = false) :
    Flowing (es ++ [e]) o.connection
      ((o.next : Multiset Task) + (o.started.flatten : Multiset Task) + others) := by
  have hattempt : c.session.attempt ≠ o.connection.session.attempt := by
    intro hsame
    rw [starts_eq_false.mpr (he ▸ hsame)] at hs
    cases hs
  obtain ⟨_, hrest, hlive, hstarted, hreset, hnext⟩ := (exec_turn ho).starts hattempt
  have hstill : ∀ t ∈ others, t.stirs = false := by
    have hturns : e.turns = true := by
      unfold Entry.turns
      rw [he, hrest, hlive]
      rfl
    exact fun t ht => hcalm hturns t (Multiset.mem_cons_of_mem ht)
  have hall : ∀ t ∈ (o.next : Multiset Task) + (o.started.flatten : Multiset Task) + others,
      t = .resetChecker ∨ t.stirs = false := by
    intro t ht
    rw [hstarted] at ht
    rcases Multiset.mem_add.mp ht with ht | ht
    · exact hnext t (mem_leaves.mp ht)
    · exact Or.inr (hstill t ht)
  refine ⟨?_, h.marked_on he, ?_, ?_, .idle ?_ ?_⟩
  · intro t ht n hn
    rcases hall t ht with rfl | hst
    · cases hn
    · rw [stirs_of_readies hn] at hst
      cases hst
  · intro _
    rw [latest_of_start hs]
    exact ⟨hlive, rfl⟩
  · intro hno
    exact absurd (Multiset.mem_add.mpr (Or.inl (Multiset.mem_add.mpr (Or.inl hreset)))) hno
  · intro t ht
    rcases hall t ht with rfl | hst
    · trivial
    · exact clear_of_still hst
  · rw [latest_of_start hs]
    rfl

/-- Only the start of an attempt leaves the checker to be made anew. -/
theorem Turn.resets (h : Turn c task o)
    (hr : .resetChecker ∈ (o.next : Multiset Task) + (o.started.flatten : Multiset Task)) :
    c.session.attempt ≠ o.connection.session.attempt := by
  have hno : (∀ t ∈ (o.next : Multiset Task) + (o.started.flatten : Multiset Task),
      t ≠ .resetChecker) → c.session.attempt ≠ o.connection.session.attempt :=
    fun hnone => absurd rfl (hnone _ hr)
  have hrelease : ∀ t : Task, t.isRelease → t ≠ .resetChecker := by
    rintro t ht rfl
    cases ht
  cases h with
  | worker _ _ _ hn hs =>
    refine hno (leaves_of_worker hn hs ?_ (by simp))
    rintro t hw rfl
    cases hw
  | aside _ _ _ hn hs => exact hno (leaves_of_aside hn hs (by simp))
  | begun => simp
  | failed | torn => exact hno (leaves_of_end hrelease (by simp))
  | letGo => exact hno (leaves_of_drop hrelease)
  | _ => exact hno (by simp)

/-- Nothing is shown while the checker is yet to be made anew. -/
theorem Flowing.shows_none (h : Flowing es c (task ::ₘ others))
    (hr : .resetChecker ∈ task ::ₘ others) : task.shows = none := by
  cases h.passing with
  | idle clear => exact shows_of_clear (clear task (Multiset.mem_cons_self ..))
  | @busy t rest bytes k split hand still =>
    rw [split] at hr
    rcases Multiset.mem_cons.mp hr with rfl | hr
    · cases hand
    · cases still _ hr

/-- The checker is made anew, or shown what comes. -/
theorem Flowing.checked_on (h : Flowing es c (task ::ₘ others))
    (he : e = ⟨move, c, task, o.effects, o.connection⟩) (hs : e.starts = false)
    (ho : c.exec move.outside task = some o) (hno : .resetChecker ∉ others)
    (hstarted : ∃ f ∈ es ++ [e], f.starts = true) :
    o.connection.checker = o.connection.config.diagnostics.map
      fun layout => checkAll (chunksShown (latest (es ++ [e]))) (.new layout) := by
  have hbefore : ∃ f ∈ es, f.starts = true := by
    obtain ⟨f, hf, hfs⟩ := hstarted
    rcases List.mem_append.mp hf with hf | hf
    · exact ⟨f, hf, hfs⟩
    · rw [List.mem_singleton.mp hf, hs] at hfs
      cases hfs
  have hshown : chunksShown (latest (es ++ [e])) =
      chunksShown (latest es) ++ task.shows.toList := by
    rw [shown_snoc hs, he]
  rw [(fixed_of_exec ho).2, hshown]
  by_cases ht : task = .resetChecker
  · subst ht
    rw [(h.fresh (Multiset.mem_cons_self ..)).2]
    simp only [exec, Option.some.injEq] at ho
    subst ho
    rfl
  · have hnone : .resetChecker ∉ task ::ₘ others := by
      intro hmem
      rcases Multiset.mem_cons.mp hmem with hmem | hmem
      · exact ht hmem.symm
      · exact hno hmem
    rw [checker_of_exec ho ht, h.checked hnone hbefore, Option.map_map]
    congr 1
    funext layout
    exact (List.foldl_append ..).symm

theorem Flowing.step (h : Flowing es c (task ::ₘ others))
    (he : e = ⟨move, c, task, o.effects, o.connection⟩)
    (ho : c.exec move.outside task = some o) (hp : Poised c others task)
    (htuned : Tuned c (task ::ₘ others)) (hears : Hears c)
    (hcalm : e.turns = true → ∀ t ∈ task ::ₘ others, t.stirs = false) :
    Flowing (es ++ [e]) o.connection
      ((o.next : Multiset Task) + (o.started.flatten : Multiset Task) + others) := by
  rcases hs : e.starts
  · have hturn := exec_turn ho
    have hattempt : c.session.attempt = o.connection.session.attempt :=
      starts_eq_false.mp (he ▸ hs)
    have hreset : .resetChecker ∈
        (o.next : Multiset Task) + (o.started.flatten : Multiset Task) + others →
        .resetChecker ∈ others := by
      intro hmem
      rcases Multiset.mem_add.mp hmem with hmem | hmem
      · exact absurd hattempt (hturn.resets hmem)
      · exact hmem
    refine ⟨?_, h.marked_on he, ?_, ?_, ?_⟩
    · rw [← hattempt]
      intro t ht n hn
      rcases Multiset.mem_add.mp ht with ht | ht
      · rcases hturn.readies ht hn with hn | hn
        · exact h.timely task (Multiset.mem_cons_self ..) n hn
        · exact hn
      · exact h.timely t (Multiset.mem_cons_of_mem ht) n hn
    · intro hmem
      have hmem : .resetChecker ∈ task ::ₘ others := Multiset.mem_cons_of_mem (hreset hmem)
      obtain ⟨hlive, hnone⟩ := h.fresh hmem
      have hturns : e.turns = false :=
        eq_false_of_ne_true fun ht => by cases hcalm ht _ hmem
      have hsame := (turns_eq_false hturns).1
      rw [he] at hsame
      refine ⟨hsame ▸ hlive, ?_⟩
      rw [shown_snoc hs, hnone, he, h.shows_none hmem]
      rfl
    · exact fun hno hstarted =>
        h.checked_on he hs ho (fun hmem => hno (Multiset.mem_add.mpr (Or.inr hmem))) hstarted
    · cases h.passing with
      | idle clear same => exact .step_idle he hs ho htuned hcalm clear same
      | busy split hand still owned same =>
        exact .step_busy he hs ho hp htuned hears hcalm split hand still owned same
  · exact h.step_start he hs ho hcalm

end Flow

end OneStep

/-! ## Any moves -/

theorem poised_of_source {c : Connection} {P others : Multiset Task} {move : Move} {task : Task}
    (hg : Guarded c P) (hsource : P = task ::ₘ others ∨ P = others ∧ Begins c others move task) :
    Poised c others task := by
  rcases hsource with rfl | ⟨rfl, hb⟩
  · exact Or.inl hg
  · by_cases hd : task = .drop
    · exact Or.inr hd
    · exact Or.inl (hg.begin hb hd)

theorem poised_of_move {m m' : Machine} {move : Move} {e : Entry}
    (hg : Guarded m.connection m.pending) (h : m.move move = some (e, m')) :
    ∃ others, Poised e.before others e.task := by
  obtain ⟨_, rfl, _, _, hsource⟩ := makes_of_move h
  exact ⟨_, poised_of_source hg hsource⟩

section Moves

variable {device : DeviceInfo} {config : ConnectionConfig} {prober : Prober}

/-- The marker was set for an attempt that owns a reader. -/
theorem fed_of_moves (moves : List Move) :
    ∀ k, (History.of (.new device config prober) moves).machine.connection.session.resources.reader
        = some k →
      Fed (History.of (.new device config prober) moves).entries
        (History.of (.new device config prober) moves).machine.connection.session.attempt := by
  refine History.moves_induction (I := fun h =>
    ∀ k, h.machine.connection.session.resources.reader = some k →
      Fed h.entries h.machine.connection.session.attempt) (fun _ hk => by cases hk) ?_ moves
  intro moves move e m' ih hm k hk
  obtain ⟨others, hp⟩ := poised_of_move (guarded_of_moves device config prober moves) hm
  obtain ⟨source, head, ran, rfl, rfl⟩ := advances_of_move hm
  rcases (exec_turn ran).owned_reader hp hk with ⟨hown, ha⟩ | ⟨_, ha, port, rfl⟩
  · dsimp only
    rw [ha]
    exact (ih k hown).mono _
  · have hshape := every_source source (shaped_of_moves _ moves) shaped_of_begins _
      (List.mem_of_getElem? head)
    dsimp only
    rw [ha]
    cases hshape with
    | free ht => cases ht
    | starting ht => rcases ht with ht | ⟨_, ht⟩ <;> cases ht
    | driving hn fed =>
      cases hn
      exact (fed rfl).mono _

/-- What the session's reader reads is let in. -/
theorem hears_of_moves (moves : List Move)
    (h : Flowing (History.of (.new device config prober) moves).entries
      (History.of (.new device config prober) moves).machine.connection
      (History.of (.new device config prober) moves).machine.pending) :
    Hears (History.of (.new device config prober) moves).machine.connection := by
  have hguarded := guarded_of_moves device config prober moves
  have hmarked := marked_of_moves device config prober moves
  have hfed := @fed_of_moves device config prober moves
  generalize (History.of (.new device config prober) moves).machine.connection = c at *
  have hheld : ∀ k, c.session.resources.reader = some k → c.dropped = false := by
    intro k hk
    refine eq_false_of_ne_true fun hgone => ?_
    rw [(hguarded.gone hgone).empty] at hk
    cases hk
  refine ⟨?_, hheld, ?_⟩
  · intro k hk
    refine eq_true_of_ne_false fun hrest => ?_
    rw [(owns_at_rest hrest).mp (hguarded.held (hheld k hk)).owns] at hk
    cases hk
  · intro k hk
    rcases hmarked.marker (hfed k hk) with hf | ⟨e, he, htask, hlt⟩
    · exact hf
    · have := h.marked e he _ htask
      omega

theorem flowing_new (device : DeviceInfo) (config : ConnectionConfig) (prober : Prober) :
    Flowing [] (.new device config prober) 0 := by
  refine ⟨by simp, by simp, by simp, by simp, .idle (by simp) ?_⟩
  simp [latest, chunksShown, slices]

/-- Whatever moves a connection makes that are not hurried. -/
theorem flowing_of_moves (moves : List Move) (h : Unhurried (.new device config prober) moves) :
    Flowing (History.of (.new device config prober) moves).entries
      (History.of (.new device config prober) moves).machine.connection
      (History.of (.new device config prober) moves).machine.pending := by
  refine Whenever.induction
    (I := fun h => Flowing h.entries h.machine.connection h.machine.pending)
    (flowing_new device config prober) ?_ moves h
  intro moves move e m' hflow hm hturns
  obtain ⟨ho, he, hc, hp, hsource⟩ := makes_of_move hm
  rename_i task others o
  have hpoised := poised_of_source (guarded_of_moves device config prober moves) hsource
  have htuned := tuned_of_moves device config prober moves
  -- All that is used of the condition: a step that turns comes where nothing stirs.
  have hcalm : e.turns = true → ∀ t ∈ task ::ₘ others, t.stirs = false := by
    intro ht t hmem
    have hcalm := (isCalm_iff _).mp (hturns ht)
    rcases hsource with hs | ⟨hs, hb⟩
    · exact hcalm t (hs ▸ hmem)
    · rcases Multiset.mem_cons.mp hmem with rfl | hmem
      · exact still_of_begins hb
      · exact hcalm t (hs ▸ hmem)
  dsimp only
  rw [hc, hp]
  refine Flowing.step ?_ he ho hpoised ?_ (hears_of_moves moves hflow) hcalm
  · rcases hsource with hs | ⟨hs, hb⟩
    · exact hs ▸ hflow
    · exact (hs ▸ hflow : Flowing _ _ others).begin hb
  · rcases hsource with hs | ⟨hs, hb⟩
    · exact hs ▸ htuned
    · exact (hs ▸ htuned : Tuned _ others).begin hb

end Moves

end SerialLink.Connection
