-- What a session owns. An attempt that connects has one stage of opening to
-- come, or one that has failed, and what it owns by then is known from that
-- stage. A stage of an older attempt finds out and changes nothing.
import SerialLink.Proofs.Connection.Lifecycle

namespace SerialLink.Connection

/-! ## Stages to come -/

/-- The task gives attempt `n` up. -/
def Task.fails (n : Nat) : Task → Bool
  | .fail m _ => m == n
  | _ => false

/-- A stage of opening, or the failure that it came to. -/
def Task.isPipeline : Task → Bool
  | .fail .. => true
  | t => t.stage.isSome

/-- Stages of attempt `n` among pending tasks. -/
def stages (P : Multiset Task) (n : Nat) : Nat := P.countP fun t => t.stage = some n

/-- Failures of attempt `n` among pending tasks. -/
def failures (P : Multiset Task) (n : Nat) : Nat := P.countP fun t => t.fails n

theorem stages_zero (n : Nat) : stages 0 n = 0 := Multiset.countP_zero _

theorem stages_cons (t : Task) (P : Multiset Task) (n : Nat) :
    stages (t ::ₘ P) n = stages P n + if t.stage = some n then 1 else 0 :=
  Multiset.countP_cons ..

theorem failures_cons (t : Task) (P : Multiset Task) (n : Nat) :
    failures (t ::ₘ P) n = failures P n + if t.fails n then 1 else 0 :=
  Multiset.countP_cons ..

theorem stages_add (P Q : Multiset Task) (n : Nat) :
    stages (P + Q) n = stages P n + stages Q n :=
  Multiset.countP_add ..

theorem failures_add (P Q : Multiset Task) (n : Nat) :
    failures (P + Q) n = failures P n + failures Q n :=
  Multiset.countP_add ..

theorem stage_of_not_pipeline {t : Task} (h : t.isPipeline = false) : t.stage = none := by
  cases t <;> simp [Task.isPipeline, Task.stage] at h ⊢

theorem fails_of_not_pipeline {t : Task} (h : t.isPipeline = false) (n : Nat) :
    t.fails n = false := by
  cases t <;> simp [Task.isPipeline, Task.fails] at h ⊢

theorem stages_eq_zero {P : Multiset Task} (h : ∀ t ∈ P, t.isPipeline = false) (n : Nat) :
    stages P n = 0 := by
  rw [stages, Multiset.countP_eq_zero]
  intro t ht
  simp [stage_of_not_pipeline (h t ht)]

theorem failures_eq_zero {P : Multiset Task} (h : ∀ t ∈ P, t.isPipeline = false) (n : Nat) :
    failures P n = 0 := by
  rw [failures, Multiset.countP_eq_zero]
  intro t ht
  simp [fails_of_not_pipeline (h t ht)]

theorem not_pipeline_of_worker {t : Task} (h : t.isWorker) : t.isPipeline = false := by
  cases t <;> simp [Task.isWorker] at h <;> rfl

theorem not_pipeline_of_aside {t : Task} (h : t.isAside) : t.isPipeline = false := by
  cases t <;> simp [Task.isAside] at h <;> rfl

theorem not_pipeline_of_release {t : Task} (h : t.isRelease) : t.isPipeline = false := by
  cases t <;> simp [Task.isRelease] at h <;> rfl

/-! ## What is owned -/

/-- What a session owns in each state: nothing at rest, the subscription from the start on, and all
of it once it is connected. -/
def Owns (s : Session) : Prop :=
  match s.state with
  | .disconnected | .failed => s.resources = {}
  | .awaitingPermission => ∃ i, s.resources = { subscription := some i }
  | .connecting => ∃ i reader port, s.resources = { subscription := some i, reader, port }
  | .connected => ∃ i drain reader port, s.resources =
      { drain := some drain, reader := some reader, subscription := some i, port := some port }

theorem owns_at_rest {s : Session} (h : s.state.isLive = false) :
    Owns s ↔ s.resources = {} := by
  unfold Owns
  rcases (not_isLive_iff _).mp h with h | h <;> rw [h]

theorem owns_waiting {s : Session} (h : s.state = .awaitingPermission) :
    Owns s ↔ ∃ i, s.resources = { subscription := some i } := by
  unfold Owns
  rw [h]

theorem owns_connecting {s : Session} (h : s.state = .connecting) :
    Owns s ↔ ∃ i reader port, s.resources = { subscription := some i, reader, port } := by
  unfold Owns
  rw [h]

theorem owns_connected {s : Session} (h : s.state = .connected) :
    Owns s ↔ ∃ i drain reader port, s.resources =
      { drain := some drain, reader := some reader, subscription := some i
        port := some port } := by
  unfold Owns
  rw [h]

/-- What an attempt owns of port and reader when this stage is next; so many readers were made so
far. -/
def Fits (r : Resources) (readers : Nat) : Task → Prop
  | .openPort _ | .portOpened .. => r.port = none ∧ r.reader = none
  | .setParameters _ _ port | .parametersSet _ port _ | .recordReader _ port =>
    r.port = some port ∧ r.reader = none
  | .startReader _ number => r.port.isSome ∧ r.reader = some number ∧ number < readers
  | .startDrain _ | .recordDrain .. => r.port.isSome ∧ r.reader.isSome
  | _ => True

theorem Fits.mono {r : Resources} {k l : Nat} {t : Task} (h : Fits r k t) (hkl : k ≤ l) :
    Fits r l t := by
  cases t <;> first | exact h | exact ⟨h.1, h.2.1, Nat.lt_of_lt_of_le h.2.2 hkl⟩

/-- A connection that is held and the tasks that its threads have yet to do. -/
structure Tidy (c : Connection) (P : Multiset Task) : Prop where
  owns : Owns c.session
  /-- No stage is ahead of the attempts. -/
  early : ∀ t ∈ P, ∀ n, t.stage = some n → n ≤ c.session.attempt
  /-- While the grant is out, and once it is connected, an attempt has no stage to come. -/
  quiet : c.session.state = .awaitingPermission ∨ c.session.state = .connected →
    stages P c.session.attempt = 0
  /-- An attempt that connects goes through its stages once. -/
  one : c.session.state = .connecting → stages P c.session.attempt ≤ 1
  /-- An attempt that connects comes to an end by itself. -/
  led : c.session.state = .connecting →
    1 ≤ stages P c.session.attempt + failures P c.session.attempt
  fits : c.session.state = .connecting → ∀ t ∈ P, t.stage = some c.session.attempt →
    Fits c.session.resources c.readers.length t

/-! ## One step while the connection is held -/

section OneStep

variable {c d : Connection} {others next : Multiset Task} {task t : Task} {n : Nat}

/-- Where state and attempt stay as they are, it is enough that each stage to come follows from one
that was to come before, and that an attempt that connects still comes to an end. -/
theorem Tidy.keep {P Q : Multiset Task} (h : Tidy c P)
    (hstate : d.session.state = c.session.state) (hattempt : d.session.attempt = c.session.attempt)
    (howns : Owns d.session)
    (hfrom : ∀ t ∈ Q, ∀ n, t.stage = some n → ∃ u ∈ P, u.stage = some n ∧
      (c.isConnecting n → Fits c.session.resources c.readers.length u →
        Fits d.session.resources d.readers.length t))
    (hle : stages Q c.session.attempt ≤ stages P c.session.attempt)
    (hled : c.session.state = .connecting →
      stages P c.session.attempt + failures P c.session.attempt ≤
        stages Q c.session.attempt + failures Q c.session.attempt) : Tidy d Q := by
  refine ⟨howns, ?_, ?_, ?_, ?_, ?_⟩ <;> rw [hattempt]
  · intro t ht n hn
    obtain ⟨u, hu, hun, _⟩ := hfrom t ht n hn
    exact h.early u hu n hun
  · intro hc
    rw [hstate] at hc
    have := h.quiet hc
    omega
  · intro hc
    rw [hstate] at hc
    exact Nat.le_trans hle (h.one hc)
  · intro hc
    rw [hstate] at hc
    exact Nat.le_trans (h.led hc) (hled hc)
  · intro hc t ht hn
    rw [hstate] at hc
    obtain ⟨u, hu, hun, hfit⟩ := hfrom t ht _ hn
    exact hfit ((isConnecting_iff _ _).mpr ⟨rfl, hc⟩) (h.fits hc u hu hun)

/-- A new thread begins outside the stages. -/
theorem Tidy.begin (h : Tidy c others) (ht : task.isPipeline = false) :
    Tidy c (task ::ₘ others) := by
  have hs := stage_of_not_pipeline ht
  have hf := fails_of_not_pipeline ht
  refine h.keep rfl rfl h.owns ?_ ?_ ?_
  · intro t hmem n hn
    rcases Multiset.mem_cons.mp hmem with rfl | hmem
    · rw [hs] at hn
      cases hn
    · exact ⟨t, hmem, hn, fun _ hfit => hfit⟩
  · rw [stages_cons, hs]
    simp
  · intro _
    rw [stages_cons, failures_cons, hs, hf]
    simp

/-- A step that leaves the session as it is and is no stage of an attempt that connects. -/
theorem Tidy.leave (h : Tidy c (task ::ₘ others)) (hd : d.session = c.session)
    (hr : c.readers.length ≤ d.readers.length)
    (hdone : c.session.state = .connecting →
      task.stage ≠ some c.session.attempt ∧ task.fails c.session.attempt = false)
    (hn : ∀ t ∈ next, t.isPipeline = false) : Tidy d (next + others) := by
  have hs := stages_eq_zero hn
  have hf := failures_eq_zero hn
  refine h.keep (by rw [hd]) (by rw [hd]) (by rw [hd]; exact h.owns) ?_ ?_ ?_
  · intro t hmem n hstage
    rcases Multiset.mem_add.mp hmem with hmem | hmem
    · rw [stage_of_not_pipeline (hn t hmem)] at hstage
      cases hstage
    · exact ⟨t, Multiset.mem_cons_of_mem hmem, hstage, fun _ hfit => by rw [hd]; exact hfit.mono hr⟩
  · rw [stages_add, hs, stages_cons]
    omega
  · intro hc
    obtain ⟨hstage, hfail⟩ := hdone hc
    rw [stages_add, failures_add, hs, hf, stages_cons, failures_cons, if_neg hstage, hfail]
    simp

/-- A stage that has gone well is followed by the next. What it records, it records for an attempt
that connects. -/
theorem Tidy.pass (h : Tidy c (task ::ₘ others)) (hl : Leads n task t)
    (hstate : d.session.state = c.session.state) (hattempt : d.session.attempt = c.session.attempt)
    (howns : Owns d.session) (hr : c.readers.length ≤ d.readers.length)
    (hres : d.session.resources = c.session.resources ∨ c.isConnecting n)
    (hfits : c.isConnecting n → Fits c.session.resources c.readers.length task →
      Fits d.session.resources d.readers.length t)
    (quiet : Multiset Task) (hnext : next = t ::ₘ quiet) (hq : ∀ t ∈ quiet, t.isPipeline = false) :
    Tidy d (next + others) := by
  have hs := stages_eq_zero hq
  have hf := failures_eq_zero hq
  have hfail : ∀ m, task.fails m = false ∧ t.fails m = false := by
    intro m
    cases hl <;> exact ⟨rfl, rfl⟩
  obtain ⟨hstage, hstage'⟩ := hl.stage
  subst hnext
  refine h.keep hstate hattempt howns ?_ ?_ ?_
  · intro u hmem m hm
    simp only [Multiset.mem_add, Multiset.mem_cons] at hmem
    rcases hmem with (rfl | hmem) | hmem
    · have hnm : n = m := Option.some.inj (hstage'.symm.trans hm)
      subst hnm
      exact ⟨task, Multiset.mem_cons_self _ _, hstage, hfits⟩
    · rw [stage_of_not_pipeline (hq u hmem)] at hm
      cases hm
    · refine ⟨u, Multiset.mem_cons_of_mem hmem, hm, fun hum hfit => ?_⟩
      rcases hres with hres | hconn
      · rw [hres]
        exact hfit.mono hr
      · -- There would be two stages of the attempt to come.
        obtain ⟨rfl, hc⟩ := (isConnecting_iff _ _).mp hconn
        have hpos : 0 < stages others c.session.attempt := Multiset.countP_pos.mpr
          ⟨u, hmem, by simpa [((isConnecting_iff _ _).mp hum).1] using hm⟩
        have hone := h.one hc
        rw [stages_cons, if_pos hstage] at hone
        omega
  · rw [stages_add, stages_cons, stages_cons, hs, hstage, hstage']
    omega
  · intro _
    rw [stages_add, failures_add, stages_cons, failures_cons, stages_cons, failures_cons, hs, hf,
      hstage, hstage', (hfail _).1, (hfail _).2]
    simp only [Bool.false_eq_true, if_false]
    omega

/-- What fails is a stage of the attempt, or something that was not one. -/
theorem Tidy.give_up {e : ConnectionError} (h : Tidy c (task ::ₘ others))
    (hf : Fails c task n e) : Tidy c ((Task.fail n e ::ₘ 0) + others) := by
  have hstage : task.stage = some n ∨ task.stage = none := by
    cases hf
    case denial => exact Or.inr rfl
    case request => exact Or.inr rfl
    all_goals exact Or.inl rfl
  have hfail : ∀ m, task.fails m = false := by
    intro m
    cases hf <;> rfl
  refine h.keep rfl rfl h.owns ?_ ?_ ?_
  · intro u hmem m hm
    simp only [Multiset.mem_add, Multiset.mem_cons, Multiset.notMem_zero, or_false] at hmem
    rcases hmem with rfl | hmem
    · cases hm
    · exact ⟨u, Multiset.mem_cons_of_mem hmem, hm, fun _ hfit => hfit⟩
  · rw [stages_add, stages_cons, stages_cons, stages_zero]
    simp [Task.stage]
  · intro _
    rw [stages_add, failures_add, stages_cons, failures_cons, stages_cons, failures_cons,
      stages_zero, hfail]
    have hdone : (Task.fail n e).fails c.session.attempt = true ↔ n = c.session.attempt := by
      rw [Task.fails, beq_iff_eq]
    rcases hstage with hs | hs <;> rw [hs]
    · simp only [hdone, Option.some.injEq, Bool.false_eq_true, if_false]
      omega
    · simp only [reduceCtorEq, Bool.false_eq_true, if_false]
      omega

/-- The end of an attempt leaves nothing owned. -/
theorem Tidy.finish {state : ConnectionState} (h : Tidy c (task ::ₘ others))
    (hs : state.isLive = false) (hn : ∀ t ∈ next, t.isPipeline = false) :
    Tidy (c.ended state) (next + others) := by
  have hno : state ≠ .awaitingPermission ∧ state ≠ .connecting ∧ state ≠ .connected := by
    cases state <;> simp [ConnectionState.isLive] at hs ⊢
  obtain ⟨hwait, hconnecting, hconnected⟩ := hno
  refine ⟨?_, ?_, ?_, ?_, ?_, ?_⟩ <;> simp only [ended_session]
  · exact (owns_at_rest hs).mpr rfl
  · intro t hmem n hstage
    rcases Multiset.mem_add.mp hmem with hmem | hmem
    · rw [stage_of_not_pipeline (hn t hmem)] at hstage
      cases hstage
    · exact h.early t (Multiset.mem_cons_of_mem hmem) n hstage
  · intro hc
    rcases hc with hc | hc
    · exact absurd hc hwait
    · exact absurd hc hconnected
  · exact fun hc => absurd hc hconnecting
  · exact fun hc => absurd hc hconnecting
  · exact fun hc => absurd hc hconnecting

/-- A new attempt has no stage yet; those of older attempts are behind it. -/
theorem Tidy.stages_ahead (h : Tidy c (task ::ₘ others)) (hn : c.session.attempt < n) :
    stages others n = 0 := by
  rw [stages, Multiset.countP_eq_zero]
  intro t ht hs
  have := h.early t (Multiset.mem_cons_of_mem ht) n (by simpa using hs)
  omega

/-- An attempt that has no stage to come waits for its grant, or it connects from the first stage
on. -/
theorem Tidy.set_out (permitted : Bool) (h : Tidy c (task ::ₘ others))
    (ha : c.session.attempt ≤ d.session.attempt) (hnone : stages others d.session.attempt = 0)
    (hstate : d.session.state = if permitted then .connecting else .awaitingPermission)
    (hres : ∃ i, d.session.resources = { subscription := some i })
    (hnext : ∀ t ∈ next, t.isPipeline → t = .openPort d.session.attempt)
    (hcount : stages next d.session.attempt = if permitted then 1 else 0) :
    Tidy d (next + others) := by
  obtain ⟨i, hi⟩ := hres
  have hsplit : ∀ t ∈ next + others, ∀ m, t.stage = some m →
      t = .openPort d.session.attempt ∧ m = d.session.attempt ∨ t ∈ others := by
    intro t hmem m hm
    rcases Multiset.mem_add.mp hmem with hmem | hmem
    · by_cases hp : t.isPipeline = true
      · have ht := hnext t hmem hp
        rw [ht, Task.stage, Option.some.injEq] at hm
        exact Or.inl ⟨ht, hm.symm⟩
      · rw [stage_of_not_pipeline (by simpa using hp)] at hm
        cases hm
    · exact Or.inr hmem
  refine ⟨?_, ?_, ?_, ?_, ?_, ?_⟩
  · unfold Owns
    rw [hstate]
    cases permitted
    · exact ⟨i, hi⟩
    · exact ⟨i, none, none, hi⟩
  · intro t hmem m hm
    rcases hsplit t hmem m hm with ⟨_, hm⟩ | hmem
    · omega
    · exact Nat.le_trans (h.early t (Multiset.mem_cons_of_mem hmem) m hm) ha
  · intro hc
    rw [stages_add, hnone, hcount]
    cases permitted
    · rfl
    · simp [hstate] at hc
  · intro hc
    rw [stages_add, hnone, hcount]
    split <;> omega
  · intro hc
    rw [stages_add, hnone, hcount]
    cases permitted
    · simp [hstate] at hc
    · simp only [if_true]
      omega
  · intro hc t hmem hm
    rcases hsplit t hmem _ hm with ⟨rfl, _⟩ | hmem
    · exact ⟨by rw [hi], by rw [hi]⟩
    · have hpos : 0 < stages others d.session.attempt :=
        Multiset.countP_pos.mpr ⟨t, hmem, by simpa using hm⟩
      omega

/-- The last stage makes the attempt connected, and none is left. -/
theorem Tidy.complete {drain : Nat} (h : Tidy c (task ::ₘ others))
    (htask : task = .recordDrain n drain) (hc : c.isConnecting n)
    (hd : d.session = { c.session with
      state := .connected, resources := { c.session.resources with drain := some drain } })
    (hn : ∀ t ∈ next, t.isPipeline = false) : Tidy d (next + others) := by
  obtain ⟨rfl, hstate⟩ := (isConnecting_iff _ _).mp hc
  subst htask
  have hone := h.one hstate
  rw [stages_cons, Task.stage, if_pos rfl] at hone
  obtain ⟨i, reader, port, hres⟩ := (owns_connecting hstate).mp h.owns
  obtain ⟨hport, hreader⟩ := h.fits hstate _ (Multiset.mem_cons_self _ _) rfl
  rw [hres] at hport hreader
  obtain ⟨p, rfl⟩ := Option.isSome_iff_exists.mp hport
  obtain ⟨r, rfl⟩ := Option.isSome_iff_exists.mp hreader
  refine ⟨?_, ?_, ?_, ?_, ?_, ?_⟩ <;> rw [hd]
  · exact ⟨i, drain, r, p, by rw [hres]⟩
  · intro t hmem m hm
    rcases Multiset.mem_add.mp hmem with hmem | hmem
    · rw [stage_of_not_pipeline (hn t hmem)] at hm
      cases hm
    · exact h.early t (Multiset.mem_cons_of_mem hmem) m hm
  · intro _
    rw [stages_add, stages_eq_zero hn]
    dsimp only
    omega
  all_goals
    intro hc
    cases hc

end OneStep

/-- An attempt that connects may own a reader and a port beside its subscription. -/
theorem Tidy.owns_recorded {c : Connection} {P : Multiset Task} {n : Nat} (h : Tidy c P)
    (hc : c.isConnecting n) (reader port : Option Nat) :
    Owns { c.session with resources := { c.session.resources with reader, port } } := by
  have hstate := ((isConnecting_iff _ _).mp hc).2
  obtain ⟨i, r, p, hres⟩ := (owns_connecting hstate).mp h.owns
  unfold Owns
  simp only [hstate, hres]
  exact ⟨i, reader, port, rfl⟩

/-- A stage of an attempt that connects no longer is none of the attempt under way. -/
theorem stale_stage {c : Connection} {t : Task} {n : Nat} (hs : t.stage = some n)
    (hf : ∀ m, t.fails m = false) (hc : c.isConnecting n = false) :
    c.session.state = .connecting →
      t.stage ≠ some c.session.attempt ∧ t.fails c.session.attempt = false := by
  intro hstate
  refine ⟨?_, hf _⟩
  intro he
  rw [hs, Option.some.injEq] at he
  have := (isConnecting_iff c n).mpr ⟨he.symm, hstate⟩
  rw [hc] at this
  cases this

/-- What threads have yet to do is tidy again after any step of a connection that is held. -/
theorem Turn.tidy {c : Connection} {others : Multiset Task} {task : Task} {o : Outcome}
    (h : Turn c task o) (ht : Tidy c (task ::ₘ others)) (held : o.connection.dropped = false) :
    Tidy o.connection
      ((o.next : Multiset Task) + (o.started.flatten : Multiset Task) + others) := by
  cases h with
  | worker hw hc _ hn hs =>
    have hp := not_pipeline_of_worker hw
    exact ht.leave hc.session (by rw [hc.readers])
      (by simp [stage_of_not_pipeline hp, fails_of_not_pipeline hp])
      (leaves_of_worker hn hs (fun _ => not_pipeline_of_worker) (fun _ _ => rfl))
  | aside hw hc _ hn hs =>
    have hp := not_pipeline_of_aside hw
    exact ht.leave hc.session (by rw [hc.readers])
      (by simp [stage_of_not_pipeline hp, fails_of_not_pipeline hp])
      (leaves_of_aside hn hs (fun _ _ _ => rfl))
  | idle hi =>
    refine ht.leave rfl (Nat.le_refl _) ?_ (by simp)
    intro hc
    cases hi with
    | @fail n e hno =>
      refine ⟨by simp [Task.stage], ?_⟩
      have hne : n ≠ c.session.attempt := fun he => hno ⟨he.symm, Or.inr hc⟩
      simpa [Task.fails] using hne
    | @noReader n number hnone =>
      -- The reader that an attempt starts has been made, so this stage is an older one's.
      refine ⟨?_, rfl⟩
      intro hs
      have hfit := ht.fits hc _ (Multiset.mem_cons_self _ _) hs
      rw [List.getElem?_eq_none_iff] at hnone
      exact absurd hfit.2.2 (by omega)
    | _ => exact ⟨by simp [Task.stage], rfl⟩
  | failing hf => exact ht.give_up hf
  | @begun subscription permitted hrest =>
    -- The number of the attempt is new, and so no stage to come is one of its own.
    refine ht.set_out permitted (Nat.le_succ _) (ht.stages_ahead (Nat.lt_succ_self _)) rfl ?_ ?_ ?_
    · rw [(owns_at_rest hrest).mp ht.owns]
      exact ⟨_, rfl⟩
    · intro t hmem hp
      simp only [mem_leaves, List.mem_cons, List.not_mem_nil, or_false] at hmem
      rcases hmem with rfl | rfl | rfl | rfl
      · cases hp
      · cases hp
      · split at hp
        · rw [if_pos ‹_›]
        · cases hp
      · cases hp
    · cases permitted <;> simp [stages, Task.stage]
  | granted _ hwait =>
    have hquiet := ht.quiet (Or.inl hwait)
    rw [stages_cons] at hquiet
    refine ht.set_out true (Nat.le_refl _) hquiet rfl ?_ ?_ ?_
    · exact (owns_waiting hwait).mp ht.owns
    · simp
    · exact (stages_cons _ 0 _).trans (by simp [stages_zero, Task.stage])
  | opening =>
    exact ht.pass .opening rfl rfl ht.owns (Nat.le_refl _) (Or.inl rfl) (fun _ hf => hf) 0 rfl
      (by simp)
  | portRecorded hc =>
    exact ht.pass .opened rfl rfl (ht.owns_recorded hc _ _) (Nat.le_refl _) (Or.inr hc)
      (fun _ hf => ⟨rfl, hf.2⟩) 0 rfl (by simp)
  | configuring =>
    exact ht.pass .configuring rfl rfl ht.owns (Nat.le_refl _) (Or.inl rfl) (fun _ hf => hf) 0 rfl
      (by simp)
  | @configured n port =>
    -- The ring is made ready before the next stage, by tasks that are no stages.
    refine ht.pass .configured rfl rfl ht.owns (Nat.le_refl _) (Or.inl rfl) (fun _ hf => hf)
      ([.clearRing, .startFeeding n] : List Task) ?_ (by simp [Task.isPipeline, Task.stage])
    exact Multiset.coe_eq_coe.mpr
      (List.perm_append_singleton (Task.recordReader n port) [.clearRing, .startFeeding n])
  | readerRecorded hc =>
    refine ht.pass .recorded rfl rfl (ht.owns_recorded hc _ _) (by simp) (Or.inr hc) ?_ 0 rfl
      (by simp)
    intro _ hf
    exact ⟨by rw [hf.1]; rfl, rfl, by simp⟩
  | @readerStarted n number reader =>
    refine ht.pass .reading rfl rfl ht.owns (by simp) (Or.inl rfl) ?_
      ([.read number .checking] : List Task) rfl (by simp [Task.isPipeline, Task.stage])
    intro _ hf
    exact ⟨hf.1, by rw [modifyReader, hf.2.1]; rfl⟩
  | drainStarted =>
    exact ht.pass .draining rfl rfl ht.owns (Nat.le_refl _) (Or.inl rfl) (fun _ hf => hf)
      ([.take c.drains.length] : List Task) rfl (by simp [Task.isPipeline, Task.stage])
  | completed hc => exact ht.complete rfl hc rfl (by simp [Task.isPipeline, Task.stage])
  | failed | torn =>
    exact ht.finish rfl (leaves_of_end (fun _ => not_pipeline_of_release) rfl)
  | letGo => cases held
  | portOrphaned hc =>
    exact ht.leave rfl (Nat.le_refl _) (stale_stage rfl (fun _ => rfl) hc)
      (by simp [Task.isPipeline, Task.stage])
  | readerOrphaned hc => exact ht.leave rfl (by simp) (stale_stage rfl (fun _ => rfl) hc) (by simp)
  | drainOrphaned hc =>
    exact ht.leave rfl (Nat.le_refl _) (stale_stage rfl (fun _ => rfl) hc) (by simp)
  | readerStopped =>
    exact ht.leave rfl (by simp) (by simp [Task.stage, Task.fails]) (by simp)
  | _ =>
    exact ht.leave rfl (Nat.le_refl _) (by simp [Task.stage, Task.fails])
      (by simp [Task.isPipeline, Task.stage])

/-! ## A connection that was let go -/

/-- Work that a connection may have left when it is let go. -/
def Task.isRest (t : Task) : Bool := t.isLoose || t.isRelease

/-- A connection that was let go owns nothing, and only gives back. -/
structure LetGo (c : Connection) (P : Multiset Task) : Prop where
  empty : c.session.resources = {}
  rest : ∀ t ∈ P, t.isRest

theorem Turn.keeps_let_go {c : Connection} {others : Multiset Task} {task : Task} {o : Outcome}
    (h : Turn c task o) (hl : LetGo c (task ::ₘ others)) (gone : c.dropped = true) :
    LetGo o.connection
      ((o.next : Multiset Task) + (o.started.flatten : Multiset Task) + others) := by
  have hothers : ∀ t ∈ others, t.isRest := fun t ht => hl.rest t (Multiset.mem_cons_of_mem ht)
  have htask := hl.rest task (Multiset.mem_cons_self _ _)
  have hkeep : ∀ {d : Connection} {next : Multiset Task}, d.session = c.session →
      (∀ t ∈ next, t.isRest) → LetGo d (next + others) := by
    intro d next hd hn
    refine ⟨by rw [hd]; exact hl.empty, ?_⟩
    intro t ht
    rcases Multiset.mem_add.mp ht with ht | ht
    · exact hn t ht
    · exact hothers t ht
  cases h with
  | worker hw hc _ hn hs =>
    refine hkeep hc.session (leaves_of_worker hn hs ?_ ?_)
    · intro t hw
      cases t <;> simp [Task.isWorker] at hw <;> rfl
    · intro n held
      rw [gone] at held
      cases held
  | aside hw hc _ hn hs =>
    refine hkeep hc.session (leaves_of_aside hn hs ?_)
    rintro data port rfl
    cases htask
  | idle | readerStopped | unsubscribed | closed => exact hkeep rfl (by simp)
  | detached held | granted held =>
    rw [gone] at held
    cases held
  | failing hf =>
    cases hf with
    | denial held =>
      rw [gone] at held
      cases held
    | _ => cases htask
  | _ => cases htask

/-- Only the last handle's end makes a connection that was let go. -/
theorem Turn.dropped {c : Connection} {task : Task} {o : Outcome} (h : Turn c task o)
    (ht : task ≠ .drop) : o.connection.dropped = c.dropped := by
  cases h with
  | worker _ hc => exact hc.dropped
  | aside _ hc => exact hc.dropped
  | letGo => exact absurd rfl ht
  | failed | torn => exact ended_dropped ..
  | _ => rfl

/-- The end of the last handle is never left to a later step. -/
theorem Turn.leaves_no_drop {c : Connection} {task : Task} {o : Outcome} (h : Turn c task o) :
    ∀ t ∈ (o.next : Multiset Task) + (o.started.flatten : Multiset Task), t ≠ .drop := by
  have hrelease : ∀ t : Task, t.isRelease → t ≠ .drop := by
    rintro t ht rfl
    cases ht
  cases h with
  | worker _ _ _ hn hs =>
    refine leaves_of_worker hn hs ?_ (by simp)
    rintro t hw rfl
    cases hw
  | aside _ _ _ hn hs => exact leaves_of_aside hn hs (by simp)
  | @begun subscription permitted => cases permitted <;> simp
  | failed | torn => exact leaves_of_end hrelease (by simp)
  | letGo => exact leaves_of_drop hrelease
  | _ => simp

/-! ## Any moves -/

/-- What holds of the tasks to come, whether the connection is held or was let go. -/
structure Guarded (c : Connection) (P : Multiset Task) : Prop where
  held : c.dropped = false → Tidy c P
  gone : c.dropped = true → LetGo c P
  undropped : Task.drop ∉ P

theorem Guarded.rest_of_gone {c : Connection} {P : Multiset Task} (h : Guarded c P)
    {t : Task} (ht : t ∈ P) (hr : t.isRest = false) : c.dropped = false := by
  by_cases hd : c.dropped = true
  · have := (h.gone hd).rest t ht
    rw [hr] at this
    cases this
  · simpa using hd

/-- A thread begins with work for a connection that is held, or with an event that one that was let
go does not heed. -/
theorem Guarded.begin {c : Connection} {others : Multiset Task} {move : Move} {task : Task}
    (h : Guarded c others) (hb : Begins c others move task) (hd : task ≠ .drop) :
    Guarded c (task ::ₘ others) := by
  have hp : task.isPipeline = false := by cases hb <;> rfl
  refine ⟨fun hheld => (h.held hheld).begin hp, ?_, ?_⟩
  · intro hgone
    refine ⟨(h.gone hgone).empty, ?_⟩
    intro t ht
    rcases Multiset.mem_cons.mp ht with rfl | ht
    · cases hb with
      | event => rfl
      | connect held | disconnect held | write held | readError held | drop held =>
        rw [hgone] at held
        cases held
    · exact (h.gone hgone).rest t ht
  · intro ht
    rcases Multiset.mem_cons.mp ht with rfl | ht
    · exact hd rfl
    · exact h.undropped ht

theorem Turn.guarded {c : Connection} {others : Multiset Task} {task : Task} {o : Outcome}
    (h : Turn c task o) (hg : Guarded c (task ::ₘ others)) :
    Guarded o.connection
      ((o.next : Multiset Task) + (o.started.flatten : Multiset Task) + others) := by
  have hd : task ≠ .drop := fun he => hg.undropped (he ▸ Multiset.mem_cons_self _ _)
  have hsame := h.dropped hd
  refine ⟨?_, ?_, ?_⟩
  · intro held
    exact h.tidy (hg.held (hsame ▸ held)) held
  · intro gone
    rw [hsame] at gone
    exact h.keeps_let_go (hg.gone gone) gone
  · intro ht
    rcases Multiset.mem_add.mp ht with ht | ht
    · exact h.leaves_no_drop _ ht rfl
    · exact hg.undropped (Multiset.mem_cons_of_mem ht)

/-- The last handle is let go while no thread is inside, so only loose work and what is given back
remain. -/
theorem guarded_drop {c : Connection} {others : Multiset Task} {o : Outcome}
    (h : Turn c .drop o) (hg : Guarded c others) (free : ∀ t ∈ others, t.isLoose) :
    Guarded o.connection
      ((o.next : Multiset Task) + (o.started.flatten : Multiset Task) + others) := by
  have hnone := h.leaves_no_drop
  cases h with
  | letGo =>
    refine ⟨fun held => (by cases held), fun _ => ⟨by simp, ?_⟩, ?_⟩
    · intro t ht
      rcases Multiset.mem_add.mp ht with ht | ht
      · refine leaves_of_drop (q := fun t => t.isRest = true) ?_ t ht
        intro t hr
        rw [Task.isRest, hr, Bool.or_true]
      · rw [Task.isRest, free t ht, Bool.true_or]
    · intro ht
      rcases Multiset.mem_add.mp ht with ht | ht
      · exact hnone _ ht rfl
      · exact hg.undropped ht
  | worker hw => cases hw
  | aside hw => cases hw
  | idle hi => cases hi
  | failing hf => cases hf

theorem guarded_new (device : DeviceInfo) (config : ConnectionConfig) (prober : Prober) :
    Guarded (.new device config prober) 0 := by
  refine ⟨fun _ => ⟨rfl, by simp, fun _ => rfl, ?_, ?_, by simp⟩, fun h => (by cases h), by simp⟩
  · intro h
    cases h
  · intro h
    cases h

/-- What is known where a step is taken. -/
def Poised (c : Connection) (others : Multiset Task) (task : Task) : Prop :=
  Guarded c (task ::ₘ others) ∨ task = .drop

section Poised

variable {c : Connection} {others : Multiset Task} {task : Task} {n : Nat}

theorem Poised.tidy (h : Poised c others task) (ht : task.isRest = false) (hd : task ≠ .drop) :
    Tidy c (task ::ₘ others) := by
  rcases h with h | h
  · exact h.held (h.rest_of_gone (Multiset.mem_cons_self _ _) ht)
  · exact absurd h hd

theorem Poised.at_rest (h : Poised c others .connect) (hs : c.session.state.isLive = false) :
    c.session.resources = {} :=
  (owns_at_rest hs).mp (h.tidy rfl (by simp)).owns

theorem Poised.fits (h : Poised c others task) (hs : task.stage = some n)
    (hc : c.isConnecting n) :
    Fits c.session.resources c.readers.length task ∧ c.session.resources.drain = none := by
  have hrest : task.isRest = false ∧ task ≠ .drop := by
    cases task <;> simp [Task.stage] at hs <;>
      simp [Task.isRest, Task.isLoose, Task.isWorker, Task.isRelease]
  have ht := h.tidy hrest.1 hrest.2
  obtain ⟨rfl, hstate⟩ := (isConnecting_iff _ _).mp hc
  obtain ⟨i, reader, port, hres⟩ := (owns_connecting hstate).mp ht.owns
  exact ⟨ht.fits hstate task (Multiset.mem_cons_self _ _) hs, by rw [hres]⟩

end Poised

/-- What holds of a connection at rest, and is kept by every step where it is poised, holds after
any moves, and the connection is guarded. -/
theorem History.guarded_induction {I : List Entry → Connection → Multiset Task → Prop}
    {device : DeviceInfo} {config : ConnectionConfig} {prober : Prober}
    (start : I [] (.new device config prober) 0)
    (step : ∀ {es c others task move x o}, c.exec x task = some o → Poised c others task →
      I es c (task ::ₘ others) ∨ I es c others ∧ Begins c others move task →
      I (es ++ [⟨move, c, task, o.effects, o.connection⟩]) o.connection
        ((o.next : Multiset Task) + (o.started.flatten : Multiset Task) + others))
    (moves : List Move) :
    I (of (.new device config prober) moves).entries
        (of (.new device config prober) moves).machine.connection
        (of (.new device config prober) moves).machine.pending ∧
      Guarded (of (.new device config prober) moves).machine.connection
        (of (.new device config prober) moves).machine.pending := by
  refine of_induction (I := fun es c P => I es c P ∧ Guarded c P)
    ⟨start, guarded_new device config prober⟩ ?_ moves
  intro es c others task move x o ho hsource
  have hturn := exec_turn ho
  rcases hsource with ⟨hi, hg⟩ | ⟨⟨hi, hg⟩, hb⟩
  · exact ⟨step ho (Or.inl hg) (Or.inl hi), hturn.guarded hg⟩
  · -- The end of the last handle is the one task that a guarded connection does not have to come.
    by_cases hd : task = .drop
    · subst hd
      refine ⟨step ho (Or.inr rfl) (Or.inr ⟨hi, hb⟩), ?_⟩
      cases hb with
      | drop _ free => exact guarded_drop hturn hg free
    · have hg' := hg.begin hb hd
      exact ⟨step ho (Or.inl hg') (Or.inr ⟨hi, hb⟩), hturn.guarded hg'⟩

theorem guarded_of_moves (device : DeviceInfo) (config : ConnectionConfig) (prober : Prober)
    (moves : List Move) :
    Guarded (History.of (.new device config prober) moves).machine.connection
      (History.of (.new device config prober) moves).machine.pending :=
  (History.guarded_induction (I := fun _ _ _ => True) trivial (fun _ _ _ => trivial) moves).2

end SerialLink.Connection
