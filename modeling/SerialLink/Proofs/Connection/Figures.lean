-- The loss figures of an attempt. They begin anew with the attempt, count every
-- slice that its reader reads, whether the ring takes it or not and whenever the
-- drain comes, and stay as they are when the attempt is over. All this holds
-- while nothing is hurried: a slice that is still under way when its attempt ends
-- may be counted for the next one.
import SerialLink.Proofs.Connection.Slices

namespace SerialLink.Connection

/-! ## Whether there are figures -/

/-- Whether there is a checker, from what happened. -/
structure Checks (config : ConnectionConfig) (es : List Entry) (c : Connection)
    (P : Multiset Task) : Prop where
  fixed : c.config = config
  unstarted : (∀ e ∈ es, e.starts = false) → c.checker = none ∧ .resetChecker ∉ P
  started : .resetChecker ∉ P → (∃ e ∈ es, e.starts = true) →
    c.checker.isSome = config.diagnostics.isSome

section Checks

variable {config : ConnectionConfig} {es : List Entry} {c : Connection} {x : Outside}
  {others : Multiset Task} {task : Task} {move : Move} {o : Outcome} {e : Entry}

theorem Checks.begin (h : Checks config es c others) (hb : Begins c others move task) :
    Checks config es c (task ::ₘ others) := by
  have hreset : .resetChecker ∈ task ::ₘ others ↔ .resetChecker ∈ others := mem_of_begins hb rfl
  refine ⟨h.fixed, fun hno => ?_, fun hno => h.started fun hmem => hno (hreset.mpr hmem)⟩
  exact ⟨(h.unstarted hno).1, fun hmem => (h.unstarted hno).2 (hreset.mp hmem)⟩

theorem Checks.unstarted_on (h : Checks config es c (task ::ₘ others))
    (he : e = ⟨move, c, task, o.effects, o.connection⟩) (ho : c.exec x task = some o)
    (hno : ∀ f ∈ es ++ [e], f.starts = false) :
    o.connection.checker = none ∧
      .resetChecker ∉ (o.next : Multiset Task) + (o.started.flatten : Multiset Task) + others := by
  obtain ⟨hnone, hreset⟩ := h.unstarted fun f hf => hno f (List.mem_append_left _ hf)
  have hattempt : c.session.attempt = o.connection.session.attempt := by
    have hlast := hno e (List.mem_append_right _ (List.mem_singleton_self e))
    exact starts_eq_false.mp (he ▸ hlast)
  refine ⟨?_, fun hmem => ?_⟩
  · rw [checker_of_exec ho fun ht => hreset (ht ▸ Multiset.mem_cons_self ..), hnone]
    rfl
  · rcases Multiset.mem_add.mp hmem with hmem | hmem
    · exact (exec_turn ho).resets hmem hattempt
    · exact hreset (Multiset.mem_cons_of_mem hmem)

theorem Checks.started_on (h : Checks config es c (task ::ₘ others))
    (he : e = ⟨move, c, task, o.effects, o.connection⟩) (ho : c.exec x task = some o)
    (hno : .resetChecker ∉
      (o.next : Multiset Task) + (o.started.flatten : Multiset Task) + others)
    (hs : ∃ f ∈ es ++ [e], f.starts = true) :
    o.connection.checker.isSome = config.diagnostics.isSome := by
  have hbefore : ∃ f ∈ es, f.starts = true := by
    obtain ⟨f, hf, hfs⟩ := hs
    rcases List.mem_append.mp hf with hf | hf
    · exact ⟨f, hf, hfs⟩
    · -- The start of an attempt leaves the checker to be made anew.
      have hattempt : c.session.attempt ≠ o.connection.session.attempt := by
        intro hsame
        rw [List.mem_singleton.mp hf, starts_eq_false.mpr (he ▸ hsame)] at hfs
        cases hfs
      have hreset := ((exec_turn ho).starts hattempt).2.2.2.2.1
      exact absurd (Multiset.mem_add.mpr (Or.inl (Multiset.mem_add.mpr (Or.inl hreset)))) hno
  by_cases ht : task = .resetChecker
  · subst ht
    simp only [exec, Option.some.injEq] at ho
    subst ho
    rw [← h.fixed]
    exact Option.isSome_map
  · rw [checker_of_exec ho ht, Option.isSome_map]
    refine h.started (fun hmem => ?_) hbefore
    rcases Multiset.mem_cons.mp hmem with hmem | hmem
    · exact ht hmem.symm
    · exact hno (Multiset.mem_add.mpr (Or.inr hmem))

theorem Checks.step (h : Checks config es c (task ::ₘ others)) (ho : c.exec x task = some o) :
    Checks config (es ++ [⟨move, c, task, o.effects, o.connection⟩]) o.connection
      ((o.next : Multiset Task) + (o.started.flatten : Multiset Task) + others) :=
  ⟨(fixed_of_exec ho).2.trans h.fixed, h.unstarted_on rfl ho, h.started_on rfl ho⟩

end Checks

theorem checks_of_moves (device : DeviceInfo) (config : ConnectionConfig) (prober : Prober)
    (moves : List Move) :
    Checks config (History.of (.new device config prober) moves).entries
      (History.of (.new device config prober) moves).machine.connection
      (History.of (.new device config prober) moves).machine.pending := by
  refine History.of_induction (I := Checks config) ⟨rfl, ?_, ?_⟩ ?_ moves
  · exact fun _ => ⟨rfl, Multiset.notMem_zero _⟩
  · rintro _ ⟨e, he, _⟩
    cases he
  · intro es c others task move x o ho hsource
    rcases hsource with h | ⟨h, hb⟩
    · exact h.step ho
    · exact (h.begin hb).step ho

/-! ## How slices are cut -/

/-- The reader was made for its port by one of these steps, and asks for as many bytes as are
configured, or as the port asked for then. -/
def Sized (config : ConnectionConfig) (es : List Entry) (a : AttemptReader) : Prop :=
  ∃ e ∈ es, ∃ n, e.task = .recordReader n a.port ∧
    a.reader.size = max (config.readBufferSize.getD (e.move.outside.packetSize a.port)) 1

theorem Sized.mono {config : ConnectionConfig} {es : List Entry} {a : AttemptReader}
    (h : Sized config es a) (fs : List Entry) : Sized config (es ++ fs) a := by
  obtain ⟨e, he, hsize⟩ := h
  exact ⟨e, List.mem_append_left fs he, hsize⟩

/-- Every reader that ever was asks for as many bytes as was found when it was made. -/
structure Cuts (config : ConnectionConfig) (es : List Entry) (c : Connection) : Prop where
  fixed : c.config = config
  before : ∀ e ∈ es, ∀ (k : Nat) (a : AttemptReader), e.before.readers[k]? = some a →
    Sized config es a
  now : ∀ (k : Nat) (a : AttemptReader), c.readers[k]? = some a → Sized config es a

theorem cuts_of_moves (device : DeviceInfo) (config : ConnectionConfig) (prober : Prober)
    (moves : List Move) :
    Cuts config (History.of (.new device config prober) moves).entries
      (History.of (.new device config prober) moves).machine.connection := by
  refine History.moves_induction
    (I := fun h => Cuts config h.entries h.machine.connection) ?_ ?_ moves
  · exact ⟨rfl, by simp, by simp [Connection.new]⟩
  · intro moves move e m' ih hm
    obtain ⟨ho, rfl, hc, _, _⟩ := makes_of_move hm
    dsimp only
    rw [hc]
    refine ⟨(fixed_of_exec ho).2.trans ih.fixed, ?_, ?_⟩
    · refine List.forall_mem_append.mpr ⟨fun f hf k a ha => (ih.before f hf k a ha).mono _, ?_⟩
      exact List.forall_mem_singleton.mpr fun k a ha => (ih.now k a ha).mono _
    · intro k a ha
      rcases reader_of_exec ho ha with ⟨b, hb, hr⟩ | ⟨n, port, rfl, _, rfl⟩
      · obtain ⟨f, hf, n, htask, hsize⟩ := (ih.now k b hb).mono [_]
        refine ⟨f, hf, n, ?_, ?_⟩
        · rw [htask, hr.port]
        · rw [hr.size, hr.port]
          exact hsize
      · unfold readerFor
        rw [ih.fixed]
        exact ⟨_, List.mem_append_right _ (List.mem_singleton_self _), n, rfl, rfl⟩

/-- The reader that was owned at a step handed what it read to the attempt under way then. -/
theorem listens_before (device : DeviceInfo) (config : ConnectionConfig) (prober : Prober)
    (moves : List Move) :
    ∀ e ∈ (History.of (.new device config prober) moves).entries, ∀ k,
      e.before.session.resources.reader = some k →
        Listens e.before k e.before.session.attempt := by
  refine History.moves_induction (I := fun h => ∀ e ∈ h.entries, ∀ k,
    e.before.session.resources.reader = some k → Listens e.before k e.before.session.attempt)
    (by simp) ?_ moves
  intro moves move e m' ih hm
  obtain ⟨_, rfl, _, _, _⟩ := makes_of_move hm
  refine List.forall_mem_append.mpr ⟨ih, List.forall_mem_singleton.mpr fun k hk => ?_⟩
  exact ((tuned_of_moves device config prober moves).owned k hk).1

/-! ## Figures of an attempt that is over -/

section Over

variable {es : List Entry} {c : Connection} {x : Outside} {task : Task} {o : Outcome}
  {others P : Multiset Task}

/-- What is at rest stays so until an attempt starts. -/
theorem Turn.resting (h : Turn c task o) (hrest : c.session.state.isLive = false)
    (ha : c.session.attempt = o.connection.session.attempt) :
    o.connection.session.state.isLive = false := by
  rcases h.change with ⟨hstate, _⟩ | hchange
  · rw [hstate]
    exact hrest
  · rw [not_isLive_iff] at hrest
    cases hchange with
    | begun _ _ hnext => omega
    | granted hs | completed hs => simp [hs] at hrest
    | failed hs => rcases hs with hs | hs <;> simp [hs] at hrest
    | ended hs => rcases hs with hs | hs | hs <;> simp [hs] at hrest

/-- Where nothing stirs, the checker has seen every slice of the latest attempt. -/
theorem Flowing.figures (h : Flowing es c P) (hcalm : ∀ t ∈ P, t.stirs = false)
    (hs : ∃ e ∈ es, e.starts = true) :
    c.checker = c.config.diagnostics.map fun layout =>
      checkAll (slices (latest es)) (.new layout) := by
  have hno : .resetChecker ∉ P := fun hmem => by cases hcalm _ hmem
  cases h.passing with
  | idle _ same => rw [h.checked hno hs, same]
  | busy split hand =>
    have hstill := hcalm _ (split ▸ Multiset.mem_cons_self ..)
    rw [hand.stirs] at hstill
    cases hstill

/-- While no attempt is under way nothing comes to the checker. -/
theorem Flowing.checker_stays (h : Flowing es c (task ::ₘ others)) (hears : Hears c)
    (hrest : c.session.state.isLive = false) (ho : c.exec x task = some o) :
    o.connection.checker = c.checker := by
  have hreset : task ≠ .resetChecker := by
    rintro rfl
    have hlive := (h.fresh (Multiset.mem_cons_self ..)).1
    rw [hrest] at hlive
    cases hlive
  have hshows : task.shows = none := by
    cases h.passing with
    | idle clear => exact shows_of_clear (clear task (Multiset.mem_cons_self ..))
    | busy _ _ _ owned =>
      have hlive := hears.live _ owned
      rw [hrest] at hlive
      cases hlive
  rw [checker_of_exec ho hreset, hshows]
  exact Option.map_id' ..

end Over

section Law

variable {device : DeviceInfo} {config : ConnectionConfig} {prober : Prober}

theorem checker_of_rest (moves more : List Move)
    (h : Unhurried (.new device config prober) (moves ++ more))
    (hrest : (History.of (.new device config prober)
      moves).machine.connection.session.state.isLive = false)
    (hno : ∀ e ∈ History.later (.new device config prober) moves more, e.starts = false) :
    (History.of (.new device config prober)
        (moves ++ more)).machine.connection.session.state.isLive = false ∧
      (History.of (.new device config prober) (moves ++ more)).machine.connection.checker =
        (History.of (.new device config prober) moves).machine.connection.checker := by
  induction more using List.reverseRecOn with
  | nil =>
    rw [List.append_nil]
    exact ⟨hrest, rfl⟩
  | append_singleton more move ih =>
    rw [← List.append_assoc] at h
    rw [History.later_snoc] at hno
    obtain ⟨hstill, hchecker⟩ := ih h.init fun e he => hno e (List.mem_append_left _ he)
    rw [← List.append_assoc, History.of_snoc]
    unfold History.extend
    split
    · rename_i e m' hm
      have hs : e.starts = false := by
        refine hno e (List.mem_append_right _ ?_)
        rw [hm]
        exact List.mem_singleton_self e
      obtain ⟨ho, rfl, hc, _, hsource⟩ := makes_of_move hm
      -- At rest no slice is on its way, and no checker is yet to be made anew.
      have hflow := flowing_of_moves (moves ++ more) h.init
      have hears := hears_of_moves (moves ++ more) hflow
      dsimp only
      rw [hc, ← hchecker]
      refine ⟨(exec_turn ho).resting hstill (starts_eq_false.mp hs), ?_⟩
      · rcases hsource with hp | ⟨rfl, hb⟩
        · exact (hp ▸ hflow : Flowing _ _ _).checker_stays hears hstill ho
        · exact (hflow.begin hb).checker_stays hears hstill ho
    · exact ⟨hstill, hchecker⟩

end Law

theorem read_of_slice {e : Entry} {bytes : Bytes} (h : e.slice = some bytes) :
    ∃ k a, e.task = .read k .reading ∧ e.before.session.resources.reader = some k ∧
      e.before.readers[k]? = some a ∧
      e.move.outside.read a.port a.reader.size = some (.ok bytes) := by
  unfold Entry.slice at h
  split at h
  · rename_i hown
    obtain ⟨answer, hanswer, hslice⟩ := Option.bind_eq_some_iff.mp h
    have hok : answer = .ok bytes := by
      rcases answer with _ | _ | ⟨b, rest⟩ <;> cases hslice
      rfl
    by_cases hr : ∃ k, e.task = .read k .reading
    · obtain ⟨k, htask⟩ := hr
      rw [htask] at hown
      rcases ha : e.before.readers[k]? with _ | a
      · unfold Entry.answer at hanswer
        simp [htask, ha] at hanswer
      · rw [answer_of_read htask ha, hok] at hanswer
        exact ⟨k, a, htask, hown.symm, ha, hanswer⟩
    · rw [brought_of_other fun k he => hr ⟨k, he⟩] at h
      cases h
  · cases h

/-- The loss figures of a connection behind `moves`, and on through `more`. It is quiescent when it
is calm: no slice is under way and nothing that a slice meets is being changed. Drains, callbacks
and calls to write may be in the middle of anything. -/
structure Figures (c : Connection) (moves more : List Move) : Prop where
  /-- There are none when no frames are checked, or before the first attempt. -/
  none_iff : (History.of c moves).machine.isCalm = true →
    ((History.of c moves).machine.connection.lossSummary = none ↔
      c.config.diagnostics = none ∨ ∀ e ∈ (History.of c moves).entries, e.starts = false)
  /-- They tell of the slices that were read since an attempt started last. -/
  figures : (History.of c moves).machine.isCalm = true →
    ∀ layout, c.config.diagnostics = some layout →
      (∃ e ∈ (History.of c moves).entries, e.starts = true) →
      (History.of c moves).machine.connection.lossSummary =
        some (checkAll (slices (latest (History.of c moves).entries)) (.new layout)).summary
  /-- A slice is what the port of the session's reader, which reads for the attempt under way,
  brought for the reader's size. -/
  cut : ∀ e ∈ (History.of c moves).entries, ∀ bytes, e.slice = some bytes →
    ∃ k a, e.task = .read k .reading ∧ e.before.session.resources.reader = some k ∧
      e.before.readers[k]? = some a ∧ a.reader.listener = some e.before.session.attempt ∧
      Sized c.config (History.of c moves).entries a ∧
      e.move.outside.read a.port a.reader.size = some (.ok bytes)
  /-- When an attempt is over its figures stay until the next one starts. -/
  stays : (History.of c moves).machine.connection.session.state.isLive = false →
    (∀ e ∈ History.later c moves more, e.starts = false) →
    (History.of c (moves ++ more)).machine.connection.lossSummary =
      (History.of c moves).machine.connection.lossSummary

section Latest

variable (device : DeviceInfo) (config : ConnectionConfig) (prober : Prober)

/-- Hurried or not, there are figures when frames are checked and an attempt was started. -/
theorem lossSummary_none_iff (moves : List Move)
    (hcalm : (History.of (.new device config prober) moves).machine.isCalm = true) :
    (History.of (.new device config prober) moves).machine.connection.lossSummary = none ↔
      config.diagnostics = none ∨
        ∀ e ∈ (History.of (.new device config prober) moves).entries, e.starts = false := by
  have hchecks := checks_of_moves device config prober moves
  have hno : .resetChecker ∉ (History.of (.new device config prober) moves).machine.pending :=
    fun hmem => by cases (isCalm_iff _).mp hcalm _ hmem
  unfold lossSummary
  rw [Option.map_eq_none_iff]
  by_cases hs : ∀ e ∈ (History.of (.new device config prober) moves).entries, e.starts = false
  · exact iff_of_true (hchecks.unstarted hs).1 (Or.inr hs)
  · have hsome := hchecks.started hno (by simpa using hs)
    rw [or_iff_left hs, ← Option.isNone_iff_eq_none, ← Option.isNone_iff_eq_none,
      ← Option.not_isSome, ← Option.not_isSome, hsome]

/-- Hurried or not, a slice is cut to the size of the reader that the session owns. -/
theorem cut_of_slice (moves : List Move) {e : Entry}
    (he : e ∈ (History.of (.new device config prober) moves).entries) {bytes : Bytes}
    (hb : e.slice = some bytes) :
    ∃ k a, e.task = .read k .reading ∧ e.before.session.resources.reader = some k ∧
      e.before.readers[k]? = some a ∧ a.reader.listener = some e.before.session.attempt ∧
      Sized config (History.of (.new device config prober) moves).entries a ∧
      e.move.outside.read a.port a.reader.size = some (.ok bytes) := by
  obtain ⟨k, a, htask, hk, ha, hread⟩ := read_of_slice hb
  have hsized := (cuts_of_moves device config prober moves).before e he k a ha
  obtain ⟨a', ha', hl⟩ := listens_before device config prober moves e he k hk
  rw [ha, Option.some.injEq] at ha'
  exact ⟨k, a, htask, hk, ha, ha' ▸ hl, hsized, hread⟩

/-- The loss figures are those of the latest attempt: of every slice that its reader read, in the
order of the reads, whether the ring took it and whenever the drain came. Operations may overlap as
long as no attempt starts or ends, and no slice is read, while a slice is under way or what it meets
is being changed: the checker, the listener, the marker. `unhurried_of_oneByOne` says that those
that come one by one are so. -/
theorem the_figures_are_those_of_the_latest_attempt (moves more : List Move)
    (h : Unhurried (.new device config prober) (moves ++ more)) :
    Figures (.new device config prober) moves more := by
  constructor
  case none_iff => exact lossSummary_none_iff device config prober moves
  case figures =>
    intro hcalm layout hlayout hs
    have hlayout : config.diagnostics = some layout := hlayout
    have hfigures := (flowing_of_moves moves h.of_append).figures ((isCalm_iff _).mp hcalm) hs
    rw [(checks_of_moves device config prober moves).fixed, hlayout] at hfigures
    unfold lossSummary
    rw [hfigures]
    rfl
  case cut => exact fun e he bytes hb => cut_of_slice device config prober moves he hb
  case stays =>
    intro hrest hno
    unfold lossSummary
    rw [(checker_of_rest moves more h hrest hno).2]

end Latest

/-- A connection is opened, reads two slices, the second of which the ring does not take, and is
closed; a call to connect that is refused then leaves the figures as they are. -/
theorem a_closed_connection_keeps_its_figures :
    let x : Outside :=
      { subscribe := .ok 1, permitted := true, requestPermission := .ok ()
        openPort := fun _ => .ok (), packetSize := fun _ => 64
        setParameters := fun _ _ => .ok (), write := fun _ data => .ok data.length
        read := fun _ _ => none }
    let brings (bytes : Bytes) : Outside :=
      { x with read := fun _ size => some (.ok (bytes.take size)) }
    let c : Connection := .new ⟨"usb", Vendor.ftdi, 0x6001, none, none⟩
      { ringCapacity := 4, readBufferSize := some 4
        diagnostics := some { sequenceOffset := 2, subIndexOffset := 3 } } {}
    let moves : List Move := .call .connect x :: .replicate 14 (.step 0 x) ++
      .replicate 7 (.step 1 (brings [0xFA, 0xD3, 1, 0, 9])) ++
      .replicate 7 (.step 1 (brings [0xFA, 0xD3, 1, 3])) ++
      .call .disconnect x :: .replicate 5 (.step 3 x)
    let more : List Move := [.call .connect { x with subscribe := .error (.subscription "no") }]
    let figures : Stream.LossSummary :=
      { totalLoss := 2, maxLoss := 2, maxClean := 0, totalFrames := 2 }
    Unhurried c (moves ++ more) ∧
      slices (latest (History.of c moves).entries) = [[0xFA, 0xD3, 1, 0], [0xFA, 0xD3, 1, 3]] ∧
      (History.of c moves).machine.connection.totals.dropped = 4 ∧
      (History.of c moves).machine.connection.lossSummary = some figures ∧
      (History.of c (moves ++ more)).machine.connection.lossSummary = some figures := by
  intro x brings c moves more figures
  have h : Unhurried c (moves ++ more) := unhurried_of_oneByOne (by decide +kernel)
  have hslices : slices (latest (History.of c moves).entries) =
      [[0xFA, 0xD3, 1, 0], [0xFA, 0xD3, 1, 3]] := by decide +kernel
  have hlaw : Figures c moves more := the_figures_are_those_of_the_latest_attempt _ _ _ moves more h
  have hsummary : (History.of c moves).machine.connection.lossSummary = some figures := by
    refine (hlaw.figures (by decide +kernel) _ rfl (by decide +kernel)).trans ?_
    rw [hslices]
    decide +kernel
  exact ⟨h, hslices, by decide +kernel, hsummary,
    (hlaw.stays (by decide +kernel) (by decide +kernel)).trans hsummary⟩

/-- The figures of an attempt may count a slice of an older one. The reader of the first attempt has
its slice let in, and before it is shown the attempt ends and a second one comes up. When all is at
rest again no slice was read since the second attempt started, and one frame is counted. -/
theorem the_figures_may_count_an_older_slice :
    let x : Outside :=
      { subscribe := .ok 1, permitted := true, requestPermission := .ok ()
        openPort := fun _ => .ok (), packetSize := fun _ => 64
        setParameters := fun _ _ => .ok (), write := fun _ data => .ok data.length
        read := fun _ _ => some (.ok [0xFA, 0xD3, 1, 1]) }
    let layout : Stream.Layout := { sequenceOffset := 2, subIndexOffset := 3 }
    let steps (thread count : Nat) : List Move := List.replicate count (.step thread x)
    let h := History.of (.new ⟨"usb", Vendor.ftdi, 0x6001, none, none⟩
        { ringCapacity := 8, diagnostics := some layout } {})
      ([.call .connect x] ++ steps 0 14 ++ steps 1 5 ++ [.call .disconnect x] ++ steps 3 5 ++
        [.call .connect x] ++ steps 4 14 ++ steps 1 3)
    h.machine.isResting = true ∧ h.machine.isCalm = true ∧
      h.machine.connection.state = .connected ∧ h.machine.connection.session.attempt = 2 ∧
      slices (latest h.entries) = [] ∧ (checkAll [] (.new layout)).summary.totalFrames = 0 ∧
      h.machine.connection.lossSummary.map (·.totalFrames) = some 1 := by
  decide +kernel

end SerialLink.Connection
