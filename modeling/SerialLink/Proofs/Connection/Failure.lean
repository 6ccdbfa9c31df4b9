-- What goes wrong with an attempt. A call to the outside fails, the grant is
-- denied, or no table knows the device; a thread carries that to the session,
-- and the first to come there while the attempt is on its way ends it. Opening
-- stops at the stage that failed, so errors of one attempt can race only where
-- its grant was waited for.
import SerialLink.Proofs.Connection.Attempts

namespace SerialLink.Connection

/-! ## What goes wrong -/

/-- With these answers from the outside attempt `n` goes wrong at this task. -/
inductive GoesWrong (c : Connection) (x : Outside) : Task → Nat → ConnectionError → Prop
  | request {n : Nat} {e : PortError} (h : x.requestPermission = .error e) :
    GoesWrong c x (.requestPermission n) n (.port e)
  | denial (held : c.dropped = false) (waits : c.session.state = .awaitingPermission) :
    GoesWrong c x (.handle .permissionDenied) c.session.attempt .accessDenied
  | noDriver {n : Nat} (h : c.prober.probe c.device = none) :
    GoesWrong c x (.openPort n) n (.noDriver c.device.vendorId c.device.productId)
  | opening {n : Nat} {kind : DriverKind} {e : PortError}
    (h : c.prober.probe c.device = some kind) (he : x.openPort kind = .error e) :
    GoesWrong c x (.openPort n) n (.port e)
  | parameters {n port : Nat} {kind : DriverKind} {e : PortError}
    (he : x.setParameters port kind.lineParameters = .error e) :
    GoesWrong c x (.setParameters n kind port) n (.port e)
  | starting {n number : Nat} {a : AttemptReader} {e : ReaderError}
    (h : c.readers[number]? = some a) (he : (a.reader.start x.thread).1 = .error e) :
    GoesWrong c x (.startReader n number) n (.reader e)
  | draining {n : Nat} {text : String} (h : x.thread = .error text) :
    GoesWrong c x (.startDrain n) n (.spawn text)

/-- Attempt `n` goes wrong at this step. -/
def Entry.GoesWrong (f : Entry) (n : Nat) (e : ConnectionError) : Prop :=
  Connection.GoesWrong f.before f.move.outside f.task n e

/-- The error that a task carries to the session, and the attempt that it is of. -/
def Task.bears : Task → Option (Nat × ConnectionError)
  | .permissionRequested n (.error e) | .portOpened n _ (.error e) => some (n, .port e)
  | .parametersSet n _ (.error e) => some (n, .port e)
  | .fail n e => some (n, e)
  | _ => none

section OneStep

variable {c : Connection} {x : Outside} {task t : Task} {o : Outcome} {n : Nat}
  {e e' : ConnectionError}

theorem bears_of_worker (h : t.isWorker) : t.bears = none := by
  cases t <;> first | rfl | cases h

theorem bears_of_aside (h : t.isAside) : t.bears = none := by
  cases t <;> first | rfl | cases h

theorem bears_of_release (h : t.isRelease) : t.bears = none := by
  cases t <;> first | rfl | cases h

/-- An attempt goes wrong in one way at a time. -/
theorem GoesWrong.unique (h : GoesWrong c x task n e) (h' : GoesWrong c x task n e') :
    e = e' := by
  cases h <;> cases h' <;> simp_all

/-- Nothing goes wrong where an error is carried on. -/
theorem GoesWrong.not_bears (h : GoesWrong c x task n e) : task.bears = none := by
  cases h <;> rfl

/-- The thread that finds that an attempt goes wrong carries the error, and does nothing else. -/
theorem GoesWrong.leaves (h : GoesWrong c x task n e) (ho : c.exec x task = some o) :
    ∃ t, t.bears = some (n, e) ∧ o.next = [t] ∧ o.started = [] := by
  cases h with
  | request h =>
    simp only [exec, h, Option.some.injEq] at ho
    subst ho
    exact ⟨_, rfl, rfl, rfl⟩
  | denial held waits =>
    simp only [exec, stepHandle, held, Bool.false_eq_true, if_false, waits, if_true,
      Option.some.injEq] at ho
    subst ho
    exact ⟨_, rfl, rfl, rfl⟩
  | noDriver h =>
    simp only [exec, stepOpenPort, h, Option.some.injEq] at ho
    subst ho
    exact ⟨_, rfl, rfl, rfl⟩
  | opening h he =>
    simp only [exec, stepOpenPort, h, he, Option.some.injEq] at ho
    subst ho
    exact ⟨_, rfl, rfl, rfl⟩
  | parameters he =>
    simp only [exec, he, Option.some.injEq] at ho
    subst ho
    exact ⟨_, rfl, rfl, rfl⟩
  | @starting _ _ a e h he =>
    simp only [exec, stepStartReader, h, Option.some.injEq] at ho
    rcases hs : a.reader.start x.thread with ⟨_ | _, r⟩
    · rw [hs] at he ho
      cases he
      subst ho
      exact ⟨_, rfl, rfl, rfl⟩
    · rw [hs] at he
      cases he
  | draining h =>
    simp only [exec, stepStartDrain, h, Option.some.injEq] at ho
    subst ho
    exact ⟨_, rfl, rfl, rfl⟩

theorem wrong_of_requesting {m : Nat} {answer : Except PortError Unit}
    (ho : c.exec x (.requestPermission m) = some o) (hn : o.next = [.permissionRequested m answer])
    (hb : (Task.permissionRequested m answer).bears = some (n, e)) :
    GoesWrong c x (.requestPermission m) n e := by
  cases answer with
  | ok => cases hb
  | error err =>
    cases hb
    simp only [exec, Option.some.injEq] at ho
    subst ho
    exact .request (by simpa using hn)

theorem wrong_of_opening {m : Nat} {kind : DriverKind} {answer : Except PortError Unit}
    (ho : c.exec x (.openPort m) = some o) (hn : o.next = [.portOpened m kind answer])
    (hb : (Task.portOpened m kind answer).bears = some (n, e)) :
    GoesWrong c x (.openPort m) n e := by
  cases answer with
  | ok => cases hb
  | error err =>
    cases hb
    simp only [exec, stepOpenPort, Option.some.injEq] at ho
    subst ho
    cases hp : c.prober.probe c.device with
    | none => simp [hp] at hn
    | some k =>
      obtain ⟨rfl, he⟩ : k = kind ∧ x.openPort k = .error err := by simpa [hp] using hn
      exact .opening hp he

theorem wrong_of_configuring {m port : Nat} {kind : DriverKind} {answer : Except PortError Unit}
    (ho : c.exec x (.setParameters m kind port) = some o)
    (hn : o.next = [.parametersSet m port answer])
    (hb : (Task.parametersSet m port answer).bears = some (n, e)) :
    GoesWrong c x (.setParameters m kind port) n e := by
  cases answer with
  | ok => cases hb
  | error err =>
    cases hb
    simp only [exec, Option.some.injEq] at ho
    subst ho
    exact .parameters (by simpa using hn)

theorem wrong_of_starting {number : Nat} {a : AttemptReader} {err : ReaderError}
    (ho : c.exec x (.startReader n number) = some o) (h : c.readers[number]? = some a)
    (hn : o.next = [.fail n (.reader err)]) :
    GoesWrong c x (.startReader n number) n (.reader err) := by
  simp only [exec, stepStartReader, h, Option.some.injEq] at ho
  subst ho
  rcases hs : a.reader.start x.thread with ⟨err' | _, r⟩
  · exact .starting h (by simpa [hs] using hn)
  · simp [hs] at hn

theorem wrong_of_draining {text : String} (ho : c.exec x (.startDrain n) = some o)
    (hn : o.next = [.fail n (.spawn text)]) : GoesWrong c x (.startDrain n) n (.spawn text) := by
  simp only [exec, stepStartDrain, Option.some.injEq] at ho
  subst ho
  cases hx : x.thread with
  | error text' => exact .draining (by simpa [hx] using hn)
  | ok => simp [hx] at hn

/-- An error that a thread is left with to carry was carried before, or the attempt went wrong at
this step. -/
theorem wrong_of_bears (ho : c.exec x task = some o)
    (ht : t ∈ (o.next : Multiset Task) + (o.started.flatten : Multiset Task))
    (hb : t.bears = some (n, e)) : GoesWrong c x task n e ∨ task.bears = some (n, e) := by
  have hnone : t.bears = none → GoesWrong c x task n e ∨ task.bears = some (n, e) := by
    intro h
    rw [h] at hb
    cases hb
  cases exec_turn ho with
  | worker _ _ _ hn hs =>
    exact hnone (leaves_of_worker hn hs (fun _ => bears_of_worker) (fun _ _ => rfl) t ht)
  | aside _ _ _ hn hs =>
    exact hnone (leaves_of_aside (q := fun t => t.bears = none) hn hs (fun _ _ _ => rfl) t ht)
  | failed | torn => exact hnone (leaves_of_end (fun _ => bears_of_release) rfl t ht)
  | letGo => exact hnone (leaves_of_drop (fun _ => bears_of_release) t ht)
  | failing hf =>
    cases mem_leaves_one.mp ht
    cases hb
    cases hf with
    | request | opening | parameters => exact Or.inr rfl
    | denial held waits => exact Or.inl (.denial held waits)
    | noDriver h => exact Or.inl (.noDriver h)
    | starting h => exact Or.inl (wrong_of_starting ho h rfl)
    | draining => exact Or.inl (wrong_of_draining ho rfl)
  | requesting =>
    cases mem_leaves_one.mp ht
    exact Or.inl (wrong_of_requesting ho rfl hb)
  | opening =>
    cases mem_leaves_one.mp ht
    exact Or.inl (wrong_of_opening ho rfl hb)
  | configuring =>
    cases mem_leaves_one.mp ht
    exact Or.inl (wrong_of_configuring ho rfl hb)
  | @begun _ permitted =>
    cases permitted <;>
      simp only [mem_leaves, List.mem_cons, List.not_mem_nil, or_false, Bool.false_eq_true,
        if_false, if_true] at ht <;>
      rcases ht with rfl | rfl | rfl | rfl <;> cases hb
  | _ =>
    simp only [List.flatten_nil, List.flatten_cons, List.append_nil, Multiset.coe_nil,
      Multiset.add_zero, Multiset.mem_add, Multiset.mem_coe, List.mem_cons, List.not_mem_nil,
      or_false] at ht
    rcases ht with rfl | rfl | rfl | rfl <;> cases hb

/-- An error is only handed on, by no further stage of opening. -/
theorem Turn.bearing (h : Turn c task o) (hb : task.bears = some (n, e)) :
    ∀ t ∈ (o.next : Multiset Task) + (o.started.flatten : Multiset Task), t.stage = none := by
  cases h with
  | worker hw => rw [bears_of_worker hw] at hb; cases hb
  | aside ha => rw [bears_of_aside ha] at hb; cases hb
  | failed =>
    exact leaves_of_end (fun _ hr => stage_of_not_pipeline (not_pipeline_of_release hr)) rfl
  | failing | idle => simp [Task.stage]
  | _ => cases hb

/-- A stage of opening is led to by one, or the attempt connects from this step on. -/
theorem Turn.opens (h : Turn c task o)
    (ht : t ∈ (o.next : Multiset Task) + (o.started.flatten : Multiset Task))
    (hn : t.stage = some n) :
    task.stage = some n ∨ SetsOut c o.connection n ∧ o.connection.isConnecting n := by
  have hnone : t.stage = none → task.stage = some n ∨
      SetsOut c o.connection n ∧ o.connection.isConnecting n := by
    intro he
    rw [he] at hn
    cases hn
  cases h with
  | worker _ _ _ hnext hs =>
    exact hnone (leaves_of_worker hnext hs
      (fun _ hw => stage_of_not_pipeline (not_pipeline_of_worker hw)) (fun _ _ => rfl) t ht)
  | aside _ _ _ hnext hs =>
    exact hnone (leaves_of_aside (q := fun t => t.stage = none) hnext hs (fun _ _ _ => rfl) t ht)
  | failed | torn =>
    exact hnone (leaves_of_end
      (fun _ hr => stage_of_not_pipeline (not_pipeline_of_release hr)) rfl t ht)
  | letGo =>
    exact hnone (leaves_of_drop
      (fun _ hr => stage_of_not_pipeline (not_pipeline_of_release hr)) t ht)
  | @begun _ permitted =>
    cases permitted <;>
      simp only [mem_leaves, List.mem_cons, List.not_mem_nil, or_false, Bool.false_eq_true,
        if_false, if_true] at ht <;>
      rcases ht with rfl | rfl | rfl | rfl <;> cases hn
    exact Or.inr ⟨⟨rfl, Or.inl (Nat.lt_succ_self _)⟩, (isConnecting_iff _ _).mpr ⟨rfl, rfl⟩⟩
  | granted _ hwait =>
    cases mem_leaves_one.mp ht
    cases hn
    exact Or.inr ⟨⟨rfl, Or.inr ⟨rfl, hwait⟩⟩, (isConnecting_iff _ _).mpr ⟨rfl, rfl⟩⟩
  | _ =>
    simp only [List.flatten_nil, List.flatten_cons, List.append_nil, Multiset.coe_nil,
      Multiset.add_zero, Multiset.mem_add, Multiset.mem_coe, List.mem_cons, List.not_mem_nil,
      or_false] at ht
    rcases ht with rfl | rfl | rfl | rfl <;> first | exact Or.inl hn | cases hn

end OneStep

/-! ## Opening stops where it goes wrong -/

/-- The attempt was under way and is over. -/
def Over (s : Session) (n : Nat) : Prop := n < s.attempt ∨ s.attempt = n ∧ s.state.isLive = false

/-- Attempt `n` ends with this step, and was not granted yet. -/
structure Entry.EndsWaiting (f : Entry) (n : Nat) : Prop where
  waits : f.before.session.attempt = n ∧ f.before.session.state = .awaitingPermission
  ends : f.after.session.attempt = n ∧ f.after.session.state.isLive = false

/-- Attempt `n` is yet to begin, or it was not granted so far, or it ended before it was. -/
def Ungranted (es : List Entry) (s : Session) (n : Nat) : Prop :=
  s.attempt < n ∨ s.attempt = n ∧ s.state = .awaitingPermission ∨ ∃ f ∈ es, f.EndsWaiting n

/-- What is known of the stages of attempt `n` from what happened, while these are to come. -/
structure Straight (es : List Entry) (s : Session) (P : Multiset Task) (n : Nat) : Prop where
  one : stages P n ≤ 1
  ungranted : Ungranted es s n → stages P n = 0 ∧ ∀ f ∈ es, f.task.stage ≠ some n
  gone : ∀ f ∈ es, f.EndsWaiting n → Over s n
  /-- Behind a stage that went wrong the error is handed on. -/
  wrong : ∀ f ∈ es, ∀ e, f.GoesWrong n e → f.task.stage = some n →
    ∀ t ∈ P, t.stage = some n → t.bears = some (n, e)
  stops : es.Pairwise fun f g => ∀ e, f.GoesWrong n e → f.task.stage = some n →
    g.task.stage = some n → g.task.bears = some (n, e)

section Straight

variable {es : List Entry} {c : Connection} {others : Multiset Task} {task : Task} {o : Outcome}
  {move : Move} {n : Nat}

theorem Turn.over (h : Turn c task o) (hn : Over c.session n) : Over o.connection.session n := by
  rcases h.change with ⟨hs, ha⟩ | hch
  · unfold Over
    rw [hs, ha]
    exact hn
  · rcases hn with hlt | ⟨rfl, hl⟩
    · exact Or.inl (Nat.lt_of_lt_of_le hlt h.attempt_le)
    · -- A session at rest is left by the beginning of the next attempt only.
      cases hch with
      | begun _ _ ha => exact Or.inl (by omega)
      | granted hs | completed hs => rw [hs] at hl; cases hl
      | failed hs => rcases hs with hs | hs <;> rw [hs] at hl <;> cases hl
      | ended hs => rw [(isLive_iff _).mpr hs] at hl; cases hl

theorem not_setsOut_of_over {d : Connection} (h : Over c.session n) : ¬ SetsOut c d n := by
  rintro ⟨_, hlt | ⟨ha, hs⟩⟩
  · rcases h with h | h <;> omega
  · rcases h with h | ⟨_, hl⟩
    · omega
    · rw [hs] at hl
      cases hl

/-- An attempt that is ungranted behind a step was so before, and the step does not let it
connect. -/
theorem Ungranted.before (h : Turn c task o)
    (hn : Ungranted (es ++ [⟨move, c, task, o.effects, o.connection⟩]) o.connection.session n)
    (gone : ∀ f ∈ es, f.EndsWaiting n → Over c.session n) :
    Ungranted es c.session n ∧ ¬ (SetsOut c o.connection n ∧ o.connection.isConnecting n) := by
  have hstate : ∀ {s}, o.connection.session.state = s → s ≠ .connecting →
      ¬ (SetsOut c o.connection n ∧ o.connection.isConnecting n) := by
    rintro s hs hne ⟨_, hc⟩
    exact hne (hs.symm.trans ((isConnecting_iff _ _).mp hc).2)
  rcases hn with hlt | ⟨ha, hs⟩ | ⟨f, hf, hend⟩
  · refine ⟨Or.inl (Nat.lt_of_le_of_lt h.attempt_le hlt), fun hout => ?_⟩
    have := hout.1.1
    omega
  · refine ⟨?_, hstate hs (by simp)⟩
    rcases h.change with ⟨hs', ha'⟩ | hch
    · exact Or.inr (Or.inl ⟨ha'.symm.trans ha, hs'.symm.trans hs⟩)
    · cases hch with
      | begun _ _ ha' => exact Or.inl (by omega)
      | granted _ hs' | failed _ hs' | completed _ hs' | ended _ hs' => rw [hs] at hs'; cases hs'
  · rcases List.mem_append.mp hf with hf | hf
    · exact ⟨Or.inr (Or.inr ⟨f, hf, hend⟩), fun hout => not_setsOut_of_over (gone f hf hend) hout.1⟩
    · cases List.mem_singleton.mp hf
      refine ⟨Or.inr (Or.inl hend.waits), hstate rfl fun hc => ?_⟩
      have := hend.ends.2
      rw [hc] at this
      cases this

theorem stages_le_drivers (P : Multiset Task) (n : Nat) : stages P n ≤ drivers P n := by
  induction P using Multiset.induction_on with
  | empty => exact Nat.le_refl _
  | cons t P ih =>
    rw [stages_cons, drivers_cons]
    by_cases ht : t.stage = some n
    · rw [if_pos ht, if_pos (drives_of_stage ht)]
      omega
    · rw [if_neg ht]
      omega

/-- A new thread begins outside the stages. -/
theorem Straight.begin {s : Session} (h : Straight es s others n) (ht : task.stage = none) :
    Straight es s (task ::ₘ others) n := by
  have hstages : stages (task ::ₘ others) n = stages others n := by
    rw [stages_cons, ht]
    simp
  refine ⟨hstages ▸ h.one, fun hn => hstages ▸ h.ungranted hn, h.gone, ?_, h.stops⟩
  intro f hf e hw hs t hmem hstage
  rcases Multiset.mem_cons.mp hmem with rfl | hmem
  · rw [ht] at hstage
    cases hstage
  · exact h.wrong f hf e hw hs t hmem hstage

/-- The stage that is gone into is the only one to come. -/
theorem Straight.alone {s : Session} (h : Straight es s (task ::ₘ others) n)
    (ht : task.stage = some n) : ∀ t ∈ others, t.stage ≠ some n := by
  intro t hmem hs
  have hone := h.one
  rw [stages_cons, if_pos ht] at hone
  have : 0 < stages others n := Multiset.countP_pos_of_mem hmem hs
  omega

theorem Turn.leaves_no_stage (h : Turn c task o) (ht : task.stage ≠ some n)
    (hout : ¬ (SetsOut c o.connection n ∧ o.connection.isConnecting n)) :
    stages ((o.next : Multiset Task) + (o.started.flatten : Multiset Task)) n = 0 :=
  Multiset.countP_eq_zero.mpr fun _ hmem hs => (h.opens hmem hs).elim ht hout

theorem Straight.one_on (h : Straight es c.session (task ::ₘ others) n) (ht : Turn c task o) :
    stages ((o.next : Multiset Task) + (o.started.flatten : Multiset Task) + others) n ≤ 1 := by
  have hone := h.one
  have hmost := Nat.le_trans (stages_le_drivers _ _) (ht.drivers_le n)
  rw [stages_cons] at hone
  rw [stages_add]
  by_cases htask : task.stage = some n
  · rw [if_pos htask] at hone
    omega
  · by_cases hout : SetsOut c o.connection n ∧ o.connection.isConnecting n
    · have hzero := (h.ungranted (hout.1.2.imp_right Or.inl)).1
      rw [stages_cons] at hzero
      omega
    · rw [ht.leaves_no_stage htask hout]
      omega

theorem Straight.ungranted_on (h : Straight es c.session (task ::ₘ others) n) (ht : Turn c task o)
    (hn : Ungranted (es ++ [⟨move, c, task, o.effects, o.connection⟩]) o.connection.session n) :
    stages ((o.next : Multiset Task) + (o.started.flatten : Multiset Task) + others) n = 0 ∧
      ∀ f ∈ es ++ [⟨move, c, task, o.effects, o.connection⟩], f.task.stage ≠ some n := by
  obtain ⟨hbefore, hout⟩ := hn.before ht h.gone
  obtain ⟨hzero, hes⟩ := h.ungranted hbefore
  rw [stages_cons] at hzero
  have htask : task.stage ≠ some n := by
    intro hs
    rw [if_pos hs] at hzero
    omega
  refine ⟨?_, ?_⟩
  · rw [stages_add, ht.leaves_no_stage htask hout]
    omega
  · intro f hf
    rcases List.mem_append.mp hf with hf | hf
    · exact hes f hf
    · exact List.mem_singleton.mp hf ▸ htask

/-- Behind a stage that went wrong, now or before, the error is handed on. -/
theorem Straight.wrong_on (ho : c.exec move.outside task = some o)
    (h : Straight es c.session (task ::ₘ others) n) {e : ConnectionError} {f : Entry}
    (hf : f ∈ es ++ [⟨move, c, task, o.effects, o.connection⟩]) (hw : f.GoesWrong n e)
    (hs : f.task.stage = some n) :
    ∀ t ∈ (o.next : Multiset Task) + (o.started.flatten : Multiset Task) + others,
      t.stage = some n → t.bears = some (n, e) := by
  have hturn := exec_turn ho
  intro t ht hstage
  rcases List.mem_append.mp hf with hf | hf
  · rcases Multiset.mem_add.mp ht with ht | ht
    · rcases hturn.opens ht hstage with htask | ⟨hout, _⟩
      · have hb := h.wrong f hf e hw hs task (Multiset.mem_cons_self ..) htask
        rw [hturn.bearing hb t ht] at hstage
        cases hstage
      · exact absurd hs ((h.ungranted (hout.2.imp_right Or.inl)).2 f hf)
    · exact h.wrong f hf e hw hs t (Multiset.mem_cons_of_mem ht) hstage
  · cases List.mem_singleton.mp hf
    rcases Multiset.mem_add.mp ht with ht | ht
    · obtain ⟨u, hu, hn, hstarted⟩ := GoesWrong.leaves hw ho
      rw [hn, hstarted, mem_leaves_one] at ht
      exact ht ▸ hu
    · exact absurd hstage (h.alone hs t ht)

theorem Straight.step (ho : c.exec move.outside task = some o)
    (h : Straight es c.session (task ::ₘ others) n) :
    Straight (es ++ [⟨move, c, task, o.effects, o.connection⟩]) o.connection.session
      ((o.next : Multiset Task) + (o.started.flatten : Multiset Task) + others) n := by
  have hturn := exec_turn ho
  refine ⟨h.one_on hturn, h.ungranted_on hturn, ?_, fun f hf e => h.wrong_on ho hf, ?_⟩
  · intro f hf hend
    rcases List.mem_append.mp hf with hf | hf
    · exact hturn.over (h.gone f hf hend)
    · cases List.mem_singleton.mp hf
      exact Or.inr hend.ends
  · refine List.pairwise_append.mpr ⟨h.stops, List.pairwise_singleton _ _, ?_⟩
    intro f hf g hg e hw hs hstage
    cases List.mem_singleton.mp hg
    exact h.wrong f hf e hw hs task (Multiset.mem_cons_self ..) hstage

theorem straight_of_moves (c : Connection) (moves : List Move) (n : Nat) :
    Straight (History.of c moves).entries (History.of c moves).machine.connection.session
      (History.of c moves).machine.pending n := by
  refine History.moves_induction (I := fun h =>
    Straight h.entries h.machine.connection.session h.machine.pending n) ?_ ?_ moves
  · exact ⟨Nat.zero_le _, fun _ => ⟨rfl, by simp⟩, by simp, by simp, .nil⟩
  · intro moves move e m' ih hm
    obtain ⟨ho, rfl, hc, hp, hsource⟩ := makes_of_move hm
    dsimp only
    rw [hc, hp]
    refine Straight.step ho ?_
    rcases hsource with hb | ⟨hb, hbegins⟩
    · exact hb ▸ ih
    · exact Straight.begin (hb ▸ ih) hbegins.stage

end Straight

/-! ## Errors on their way to the session -/

/-- An error of attempt `n` ends nothing any more. -/
def Past (s : Session) (n : Nat) : Prop :=
  n < s.attempt ∨ s.attempt = n ∧ s.state ≠ .awaitingPermission ∧ s.state ≠ .connecting

/-- What is known of the errors from what happened. -/
structure Carried (es : List Entry) (s : Session) (P : Multiset Task) : Prop where
  wrong : ∀ t ∈ P, ∀ n e, t.bears = some (n, e) → ∃ f ∈ es, f.GoesWrong n e
  /-- The first error to come to the session ends the attempt, if it still can be ended so. -/
  past : ∀ f ∈ es, ∀ n e, f.task = .fail n e → Past s n
  asked : ∀ n, .requestPermission n ∈ P → .waits ∈ moments es n
  /-- Where access was held, it is a stage of opening that goes wrong. -/
  held : ∀ f ∈ es, ∀ n e, f.GoesWrong n e → f.task.stage = some n ∨ .waits ∈ moments es n

section Carried

variable {es : List Entry} {c : Connection} {others : Multiset Task} {task : Task} {o : Outcome}
  {move : Move} {n : Nat}

theorem Turn.past (h : Turn c task o) (hn : Past c.session n) : Past o.connection.session n := by
  rcases h.change with ⟨hs, ha⟩ | hch
  · unfold Past
    rw [hs, ha]
    exact hn
  · rcases hn with hlt | ⟨rfl, hwait, hconn⟩
    · exact Or.inl (Nat.lt_of_lt_of_le hlt h.attempt_le)
    · cases hch with
      | begun _ _ ha => exact Or.inl (by omega)
      | granted hs => exact absurd hs hwait
      | completed hs => exact absurd hs hconn
      | failed hs => exact (hs.elim hwait hconn).elim
      | ended _ hs' ha => exact Or.inr ⟨ha, by rw [hs']; simp, by rw [hs']; simp⟩

/-- An error that has come to the session ends nothing more. -/
theorem Turn.fail_past {e : ConnectionError} (h : Turn c (.fail n e) o)
    (hn : n ≤ c.session.attempt) : Past o.connection.session n := by
  cases h with
  | failed ha => exact Or.inr (by rw [ended_session]; exact ⟨ha, by simp, by simp⟩)
  | idle hi =>
    cases hi with
    | fail hno =>
      rcases Nat.lt_or_eq_of_le hn with hlt | heq
      · exact Or.inl hlt
      · refine Or.inr ⟨heq.symm, fun hs => hno ⟨heq.symm, Or.inl hs⟩, fun hs => ?_⟩
        exact hno ⟨heq.symm, Or.inr hs⟩
  | worker hw => cases hw
  | aside ha => cases ha
  | failing hf => cases hf

/-- Only the call that begins an attempt without access leaves a request to be made. -/
theorem Turn.asks (h : Turn c task o)
    (ht : .requestPermission n ∈ (o.next : Multiset Task) + (o.started.flatten : Multiset Task)) :
    o.connection.session.attempt = n ∧ o.connection.session.state = .awaitingPermission := by
  have hno : (∀ t ∈ (o.next : Multiset Task) + (o.started.flatten : Multiset Task),
      t.drives = none) → o.connection.session.attempt = n ∧
        o.connection.session.state = .awaitingPermission := by
    intro hnone
    cases hnone _ ht
  cases h with
  | worker _ _ _ hn hs =>
    exact hno (leaves_of_worker hn hs (fun _ => drives_of_worker) (fun _ _ => rfl))
  | aside _ _ _ hn hs => exact hno (leaves_of_aside hn hs (fun _ _ _ => rfl))
  | failed | torn => exact hno (leaves_of_end (fun _ => drives_of_release) rfl)
  | letGo => exact hno (leaves_of_drop (fun _ => drives_of_release))
  | @begun _ permitted =>
    cases permitted
    · simp at ht
      exact ⟨ht.symm, rfl⟩
    · simp at ht
  | _ => simp at ht

/-- A new thread begins with no error and no request. -/
theorem Carried.begin {s : Session} (h : Carried es s others) (hb : Begins c others move task) :
    Carried es s (task ::ₘ others) := by
  refine ⟨?_, h.past, ?_, h.held⟩
  · intro t ht n e hbears
    rcases Multiset.mem_cons.mp ht with rfl | ht
    · cases hb <;> cases hbears
    · exact h.wrong t ht n e hbears
  · intro n hn
    rcases Multiset.mem_cons.mp hn with rfl | hn
    · cases hb
    · exact h.asked n hn

theorem Carried.step (ho : c.exec move.outside task = some o)
    (ht : Traced es c (task ::ₘ others)) (h : Carried es c.session (task ::ₘ others)) :
    Carried (es ++ [⟨move, c, task, o.effects, o.connection⟩]) o.connection.session
      ((o.next : Multiset Task) + (o.started.flatten : Multiset Task) + others) := by
  have hturn := exec_turn ho
  have hlast : (⟨move, c, task, o.effects, o.connection⟩ : Entry) ∈
      es ++ [⟨move, c, task, o.effects, o.connection⟩] :=
    List.mem_append_right _ (List.mem_singleton_self _)
  have hmoments : ∀ {n}, .waits ∈ moments es n →
      .waits ∈ moments (es ++ [⟨move, c, task, o.effects, o.connection⟩]) n := by
    intro n hw
    rw [moments_snoc]
    exact List.mem_append_left _ hw
  refine ⟨?_, ?_, ?_, ?_⟩
  · intro t hmem n e hb
    have hbefore : ∀ u ∈ task ::ₘ others, u.bears = some (n, e) →
        ∃ f ∈ es ++ [⟨move, c, task, o.effects, o.connection⟩], f.GoesWrong n e := by
      intro u hu hub
      obtain ⟨f, hf, hw⟩ := h.wrong u hu n e hub
      exact ⟨f, List.mem_append_left _ hf, hw⟩
    rcases Multiset.mem_add.mp hmem with hmem | hmem
    · rcases wrong_of_bears ho hmem hb with hw | hb
      · exact ⟨_, hlast, hw⟩
      · exact hbefore task (Multiset.mem_cons_self ..) hb
    · exact hbefore t (Multiset.mem_cons_of_mem hmem) hb
  · intro f hf n e htask
    rcases List.mem_append.mp hf with hf | hf
    · exact hturn.past (h.past f hf n e htask)
    · cases List.mem_singleton.mp hf
      dsimp only at htask
      subst htask
      exact hturn.fail_past (ht.early _ (Multiset.mem_cons_self ..) n rfl).2
  · intro n hn
    rcases Multiset.mem_add.mp hn with hn | hn
    · obtain ⟨rfl, hwait⟩ := hturn.asks hn
      exact ht.still_waiting ho hwait
    · exact hmoments (h.asked n (Multiset.mem_cons_of_mem hn))
  · intro f hf n e hw
    rcases List.mem_append.mp hf with hf | hf
    · exact (h.held f hf n e hw).imp_right hmoments
    · cases List.mem_singleton.mp hf
      cases hw with
      | request => exact Or.inr (hmoments (h.asked n (Multiset.mem_cons_self ..)))
      | denial _ hwait => exact Or.inr (hmoments (ht.waiting hwait))
      | _ => exact Or.inl rfl

end Carried

section Moves

variable (device : DeviceInfo) (config : ConnectionConfig) (prober : Prober) (moves : List Move)

theorem carried_of_moves :
    Carried (History.of (.new device config prober) moves).entries
      (History.of (.new device config prober) moves).machine.connection.session
      (History.of (.new device config prober) moves).machine.pending := by
  refine History.moves_induction (I := fun h =>
    Carried h.entries h.machine.connection.session h.machine.pending) ?_ ?_ moves
  · exact ⟨fun _ ht => (Multiset.notMem_zero _ ht).elim, by simp,
      fun _ hn => (Multiset.notMem_zero _ hn).elim, by simp⟩
  · intro moves move e m' ih hm
    have htraced := traced_of_moves device config prober moves
    obtain ⟨ho, rfl, hc, hp, hsource⟩ := makes_of_move hm
    dsimp only
    rw [hc, hp]
    rcases hsource with hb | ⟨hb, hbegins⟩
    · exact Carried.step ho (hb ▸ htraced) (hb ▸ ih)
    · exact Carried.step ho (Traced.begin (hb ▸ htraced) hbegins) (Carried.begin (hb ▸ ih) hbegins)

/-- Where access was held, one thing goes wrong with an attempt at most. -/
theorem wrong_once {f g : Entry} {n : Nat} {e e' : ConnectionError}
    (hw : .waits ∉ moments (History.of (.new device config prober) moves).entries n)
    (hf : f ∈ (History.of (.new device config prober) moves).entries)
    (hg : g ∈ (History.of (.new device config prober) moves).entries)
    (hfw : f.GoesWrong n e) (hgw : g.GoesWrong n e') : e = e' := by
  have hcarried := carried_of_moves device config prober moves
  have hfs := (hcarried.held f hf n e hfw).resolve_right hw
  have hgs := (hcarried.held g hg n e' hgw).resolve_right hw
  obtain ⟨before, after, hsplit⟩ := List.append_of_mem hf
  have hstops := (straight_of_moves (.new device config prober) moves n).stops
  rw [hsplit, List.pairwise_append, List.pairwise_cons] at hstops
  obtain ⟨_, ⟨hafter, _⟩, hbefore⟩ := hstops
  rw [hsplit] at hg
  -- The later of the two would carry the error of the earlier.
  have hnot := GoesWrong.not_bears hgw
  rcases List.mem_append.mp hg with hg | hg
  · have hb := hbefore g hg f (List.mem_cons_self ..) e' hgw hgs hfs
    rw [GoesWrong.not_bears hfw] at hb
    cases hb
  · rcases List.mem_cons.mp hg with rfl | hg
    · exact hfw.unique hgw
    · have hb := hafter g hg e hfw hfs hgs
      rw [hnot] at hb
      cases hb

end Moves

end SerialLink.Connection
