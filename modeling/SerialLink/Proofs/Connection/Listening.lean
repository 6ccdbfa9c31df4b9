-- Who listens to a reader. The reader that a session owns hands its bytes to the
-- attempt under way; a read thread of any other reader is deaf, or about to be.
import SerialLink.Proofs.Connection.Cleanup

namespace SerialLink.Connection

/-- The reader that a task starts or reads with. -/
def Task.reader : Task → Option Nat
  | .startReader _ k | .read k _ => some k
  | _ => none

/-- The reader that is made for a port of an attempt. -/
def readerFor (c : Connection) (x : Outside) (attempt port : Nat) : AttemptReader :=
  { port, reader := .new (c.config.readBufferSize.getD (x.packetSize port)) (some attempt) }

section OneStep

variable {c : Connection} {x : Outside} {task t : Task} {o : Outcome} {others : Multiset Task}
  {b : AttemptReader} {k n : Nat}

/-! ## Readers that stay -/

/-- What a task leaves of a reader: its port, its size, and who listens unless it clears that. -/
structure Remains (task : Task) (k : Nat) (a b : AttemptReader) : Prop where
  port : b.port = a.port
  size : b.reader.size = a.reader.size
  listener : b.reader.listener = a.reader.listener ∨ task = .clearListener k

theorem Remains.refl (task : Task) (k : Nat) (a : AttemptReader) : Remains task k a a :=
  ⟨rfl, rfl, Or.inl rfl⟩

theorem size_of_step {r r' : Reader Nat} {answer : Nat → Option (Except PortError Bytes)}
    {point : Reader.Point Nat} {next : Reader.Next Nat}
    (h : r.step answer point = some (next, r')) : r'.size = r.size := by
  unfold Reader.step at h
  cases point <;> simp only [Option.some.injEq, Prod.mk.injEq] at h
  case reading => split at h <;> simp_all
  case received => split at h <;> simp_all
  case reporting => split at h <;> simp_all
  case leaving => rw [← h.2]
  all_goals rw [h.2]

theorem size_of_start {r : Reader Nat} (made : Except String Unit) :
    (r.start made).2.size = r.size := by
  unfold Reader.start
  split <;> rfl

/-- A change of one reader leaves the others alone. -/
theorem remains_of_modify {j : Nat} {f : Reader Nat → Reader Nat}
    (hf : ∀ a, c.readers[j]? = some a → (f a.reader).size = a.reader.size ∧
      ((f a.reader).listener = a.reader.listener ∨ task = .clearListener j))
    (hb : (c.modifyReader j f).readers[k]? = some b) :
    ∃ a, c.readers[k]? = some a ∧ Remains task k a b := by
  unfold modifyReader at hb
  rw [List.getElem?_modify] at hb
  obtain ⟨a, ha, rfl⟩ := Option.map_eq_some_iff.mp hb
  refine ⟨a, ha, ?_⟩
  by_cases hj : j = k
  · subst hj
    obtain ⟨hsize, hlistener⟩ := hf a ha
    simp only [if_true]
    exact ⟨rfl, hsize, hlistener⟩
  · simp only [hj, if_false]
    exact .refl task k a

theorem reader_of_record {n port : Nat}
    (hb : (c.stepRecordReader x n port).connection.readers[k]? = some b) :
    c.readers[k]? = some b ∨ k = c.readers.length ∧ b = c.readerFor x n port := by
  have hmade : (c.stepRecordReader x n port).connection.readers =
      c.readers ++ [c.readerFor x n port] := by
    unfold stepRecordReader
    dsimp only
    split <;> rfl
  rw [hmade, List.getElem?_append] at hb
  split at hb
  · exact Or.inl hb
  · rw [List.getElem?_singleton] at hb
    split at hb
    · exact Or.inr ⟨by omega, (Option.some.inj hb).symm⟩
    · cases hb

/-- A reader remains from when it was made. -/
theorem reader_of_exec (ho : c.exec x task = some o) (hb : o.connection.readers[k]? = some b) :
    (∃ a, c.readers[k]? = some a ∧ Remains task k a b) ∨
      ∃ n port, task = .recordReader n port ∧ k = c.readers.length ∧ b = c.readerFor x n port := by
  by_cases hr : task.isOfReader = true
  · cases task <;> simp only [Task.isOfReader, Bool.false_eq_true] at hr <;>
      simp only [exec, Option.some.injEq] at ho
    case recordReader n port =>
      subst ho
      rcases reader_of_record hb with hb | ⟨hk, hb⟩
      · exact Or.inl ⟨b, hb, .refl _ k b⟩
      · exact Or.inr ⟨n, port, rfl, hk, hb⟩
    case startReader =>
      subst ho
      unfold stepStartReader at hb
      split at hb
      · exact Or.inl ⟨b, hb, .refl _ k b⟩
      · rename_i a ha
        split at hb
        · exact Or.inl ⟨b, hb, .refl _ k b⟩
        · rename_i reader hs
          have hsize := size_of_start (r := a.reader) x.thread
          have hlistener := listener_of_start (r := a.reader) x.thread
          rw [hs] at hsize hlistener
          refine Or.inl (remains_of_modify (fun a' ha' => ?_) hb)
          rw [ha, Option.some.injEq] at ha'
          rw [← ha']
          exact ⟨hsize, Or.inl hlistener⟩
    case read =>
      obtain ⟨a, next, reader, ha, hs, rfl⟩ := stepRead_eq ho
      refine Or.inl (remains_of_modify (fun a' ha' => ?_) hb)
      rw [ha, Option.some.injEq] at ha'
      rw [← ha']
      exact ⟨size_of_step hs, Or.inl (listener_of_step hs)⟩
    case clearListener =>
      subst ho
      exact Or.inl (remains_of_modify (fun _ _ => ⟨rfl, Or.inr rfl⟩) hb)
    case stopReader =>
      subst ho
      refine Or.inl (remains_of_modify (fun a _ => ?_) hb)
      unfold Reader.stop
      split <;> exact ⟨rfl, Or.inl rfl⟩
  · rw [(untouched_of_exec ho).readers (eq_false_of_ne_true hr)] at hb
    exact Or.inl ⟨b, hb, .refl task k b⟩

/-- Only when its listener is cleared does a reader listen no more. -/
theorem listens_stays (ho : c.exec x task = some o) (h : Listens c k n)
    (hclear : task ≠ .clearListener k) : Listens o.connection k n := by
  obtain ⟨a, ha, hl⟩ := h
  have hlt : k < c.readers.length := (List.getElem?_eq_some_iff.mp ha).1
  have hb := List.getElem?_eq_getElem (Nat.lt_of_lt_of_le hlt (exec_turn ho).readers_le)
  refine ⟨_, hb, ?_⟩
  rcases reader_of_exec ho hb with ⟨a', ha', hr⟩ | ⟨_, _, _, hk, _⟩
  · rw [ha, Option.some.injEq] at ha'
    rw [hr.listener.resolve_right hclear, ← ha']
    exact hl
  · omega

theorem listens_of_record {m port : Nat} :
    Listens (c.stepRecordReader x m port).connection c.readers.length m := by
  unfold stepRecordReader
  dsimp only
  split <;> exact ⟨_, List.getElem?_concat_length, rfl⟩

theorem Listens.lt (h : Listens c k n) : k < c.readers.length := by
  obtain ⟨a, ha, _⟩ := h
  exact (List.getElem?_eq_some_iff.mp ha).1

/-! ## The reader that is owned -/

/-- A listener is cleared when the session has given up the reader. -/
theorem Turn.clears (h : Turn c task o)
    (hk : .clearListener k ∈ (o.next : Multiset Task) + (o.started.flatten : Multiset Task)) :
    c.session.resources.reader = some k ∧ o.connection.session.resources.reader = none := by
  have hrelease : .clearListener k ∈ releaseTasks c.session.resources →
      c.session.resources.reader = some k := by
    intro hmem
    rcases mem_releaseTasks.mp hmem with ⟨j, hj, hc | hc⟩ | ⟨_, _, hc⟩ | ⟨_, _, hc⟩ <;> cases hc
    exact hj
  have hno : (∀ t ∈ (o.next : Multiset Task) + (o.started.flatten : Multiset Task),
      ∀ j, t ≠ .clearListener j) → c.session.resources.reader = some k ∧
        o.connection.session.resources.reader = none :=
    fun hnone => absurd rfl (hnone _ hk k)
  cases h with
  | worker _ _ _ hn hs =>
    refine hno (leaves_of_worker hn hs ?_ fun _ _ _ => nofun)
    rintro t hw j rfl
    cases hw
  | aside _ _ _ hn hs => exact hno (leaves_of_aside hn hs fun _ _ _ _ => nofun)
  | failed | torn =>
    rw [mem_leaves, List.mem_append, List.mem_singleton] at hk
    rcases hk with hk | hk
    · exact ⟨hrelease hk, by rw [ended_session]⟩
    · cases hk
  | letGo =>
    rw [mem_leaves] at hk
    exact ⟨hrelease hk, by rw [takeResources_session]⟩
  | @begun _ permitted => cases permitted <;> exact hno (by simp)
  | _ => exact hno (by simp)

/-- The reader that is owned behind a step was owned before, by the same attempt, or it was made for
the attempt under way. -/
theorem Turn.owned_reader (h : Turn c task o) (hp : Poised c others task)
    (hk : o.connection.session.resources.reader = some k) :
    c.session.resources.reader = some k ∧
        o.connection.session.attempt = c.session.attempt ∨
      k = c.readers.length ∧ o.connection.session.attempt = c.session.attempt ∧
        ∃ port, task = .recordReader c.session.attempt port := by
  cases h with
  | worker _ hc | aside _ hc =>
    rw [hc.session] at hk ⊢
    exact Or.inl ⟨hk, rfl⟩
  | begun hrest =>
    have hnone := hp.at_rest hrest
    simp [hnone] at hk
  | readerRecorded hc =>
    rw [← ((isConnecting_iff _ _).mp hc).1]
    exact Or.inr ⟨(Option.some.inj hk).symm, rfl, _, rfl⟩
  | failed | torn => simp at hk
  | letGo => simp at hk
  | _ => exact Or.inl ⟨hk, rfl⟩

/-- A reader that is owned stays so, or its listener is about to be cleared and the attempt is over
or the connection let go. -/
theorem Turn.keeps_reader (h : Turn c task o) (hp : Poised c others task)
    (hk : c.session.resources.reader = some k) :
    o.connection.session.resources.reader = some k ∨
      .clearListener k ∈ (o.next : Multiset Task) + (o.started.flatten : Multiset Task) ∧
        (o.connection.session.state.isLive = false ∨ o.connection.dropped = true) := by
  have hrelease : .clearListener k ∈ releaseTasks c.session.resources :=
    mem_releaseTasks.mpr (Or.inl ⟨k, hk, Or.inl rfl⟩)
  cases h with
  | worker _ hc | aside _ hc => exact Or.inl (hc.session ▸ hk)
  | begun hrest =>
    rw [hp.at_rest hrest] at hk
    cases hk
  | readerRecorded hc =>
    have hfits := (hp.fits rfl hc).1
    rw [hfits.2] at hk
    cases hk
  | failed | torn =>
    right
    rw [mem_leaves, List.mem_append, ended_session]
    exact ⟨Or.inl hrelease, Or.inl rfl⟩
  | letGo =>
    right
    rw [mem_leaves]
    exact ⟨hrelease, Or.inr rfl⟩
  | _ => exact Or.inl hk

/-! ## Tasks with a reader -/

/-- A read thread goes on with its own reader, and no other worker takes to one. -/
theorem read_of_worker {j : Nat} {point : Reader.Point Nat} (ho : c.exec x task = some o)
    (hw : task.isWorker) (ht : .read j point ∈ o.next) : ∃ p, task = .read j p := by
  by_cases hr : ∃ i p, task = .read i p
  · obtain ⟨i, p, rfl⟩ := hr
    obtain ⟨_, _, _, _, _, rfl⟩ := stepRead_eq ho
    rcases mem_afterRead ht with ⟨_, he⟩ | ⟨_, _, he⟩ | ⟨_, _, _, _, _, he⟩ <;> cases he
    exact ⟨p, rfl⟩
  · have hpass := passesOn_of_worker ho hw (fun i p he => hr ⟨i, p, he⟩) _ ht
    cases hpass

theorem reader_of_worker (ht : t.isWorker) (hk : t.reader = some k) :
    ∃ point, t = .read k point := by
  cases t <;> simp only [Task.isWorker, Bool.false_eq_true] at ht <;>
    simp only [Task.reader, Option.some.injEq, reduceCtorEq] at hk
  subst hk
  exact ⟨_, rfl⟩

theorem reader_of_release (h : t.isRelease) : t.reader = none := by
  cases t <;> first | rfl | cases h

/-- A reader is started once it is owned, and read by the thread that was started for it. -/
theorem reader_of_leaves (ho : c.exec x task = some o)
    (ht : t ∈ (o.next : Multiset Task) + (o.started.flatten : Multiset Task))
    (hk : t.reader = some k) :
    task.reader = some k ∨ o.connection.session.resources.reader = some k := by
  have hnone : t.reader = none →
      task.reader = some k ∨ o.connection.session.resources.reader = some k := by
    intro hno
    rw [hno] at hk
    cases hk
  cases exec_turn ho with
  | worker hw _ _ hn hs =>
    rw [hs, mem_leaves] at ht
    rcases hn t ht with hw' | ⟨_, _, _, _, _, rfl⟩
    · obtain ⟨point, rfl⟩ := reader_of_worker hw' hk
      obtain ⟨_, rfl⟩ := read_of_worker ho hw ht
      exact Or.inl rfl
    · exact hnone rfl
  | aside _ _ _ hn hs =>
    exact hnone (leaves_of_aside (q := fun t => t.reader = none) hn hs (fun _ _ _ => rfl) t ht)
  | failed | torn => exact hnone (leaves_of_end (fun _ => reader_of_release) rfl t ht)
  | letGo => exact hnone (leaves_of_drop (fun _ => reader_of_release) t ht)
  | readerRecorded =>
    cases mem_leaves_one.mp ht
    exact Or.inr hk
  | readerStarted =>
    simp only [List.flatten_cons, List.flatten_nil, List.append_nil, Multiset.mem_add,
      Multiset.mem_coe, List.mem_singleton] at ht
    rcases ht with rfl | rfl
    · cases hk
    · exact Or.inl hk
  | @begun _ permitted =>
    cases permitted <;>
      simp only [mem_leaves, List.mem_cons, List.not_mem_nil, or_false, Bool.false_eq_true,
        if_false, if_true] at ht <;>
      rcases ht with rfl | rfl | rfl | rfl <;> cases hk
  | _ =>
    simp only [List.flatten_nil, List.flatten_cons, List.append_nil, Multiset.coe_nil,
      Multiset.add_zero, Multiset.mem_add, Multiset.mem_coe, List.mem_cons, List.not_mem_nil,
      or_false] at ht
    rcases ht with rfl | rfl | rfl | rfl <;> cases hk

end OneStep

/-! ## Any moves -/

/-- Which readers listen, and to whom. -/
structure Tuned (c : Connection) (P : Multiset Task) : Prop where
  made : ∀ k, .clearListener k ∈ P → k < c.readers.length
  owned : ∀ k, c.session.resources.reader = some k →
    Listens c k c.session.attempt ∧ .clearListener k ∉ P
  deaf : ∀ t ∈ P, ∀ k, t.reader = some k →
    c.session.resources.reader = some k ∨ .clearListener k ∈ P ∨ Deaf c k

section Tuned

variable {c : Connection} {x : Outside} {task : Task} {o : Outcome} {others : Multiset Task}

theorem Tuned.begin {move : Move} (h : Tuned c others) (hb : Begins c others move task) :
    Tuned c (task ::ₘ others) := by
  have hclear : ∀ k, .clearListener k ∈ task ::ₘ others → .clearListener k ∈ others := by
    intro k hk
    rcases Multiset.mem_cons.mp hk with rfl | hk
    · cases hb
    · exact hk
  refine ⟨fun k hk => h.made k (hclear k hk), fun k hk => ?_, fun t ht k hk => ?_⟩
  · exact ⟨(h.owned k hk).1, fun hmem => (h.owned k hk).2 (hclear k hmem)⟩
  · rcases Multiset.mem_cons.mp ht with rfl | ht
    · cases hb <;> cases hk
    · exact (h.deaf t ht k hk).imp_right (Or.imp_left Multiset.mem_cons_of_mem)

/-- A reader that is not owned stays deaf, or its listener is yet to be cleared, or is cleared
now. -/
theorem Tuned.deaf_on (h : Tuned c (task ::ₘ others)) (ho : c.exec x task = some o)
    (hp : Poised c others task) {k : Nat}
    (hk : c.session.resources.reader = some k ∨ .clearListener k ∈ task ::ₘ others ∨ Deaf c k) :
    o.connection.session.resources.reader = some k ∨
      .clearListener k ∈
        (o.next : Multiset Task) + (o.started.flatten : Multiset Task) + others ∨
      Deaf o.connection k := by
  rcases hk with hk | hk | hk
  · rcases (exec_turn ho).keeps_reader hp hk with hk | ⟨hk, _⟩
    · exact Or.inl hk
    · exact Or.inr (Or.inl (Multiset.mem_add.mpr (Or.inl hk)))
  · rcases Multiset.mem_cons.mp hk with rfl | hmem
    · exact Or.inr (Or.inr (deaf_of_clear ho (h.made k hk)))
    · exact Or.inr (Or.inl (Multiset.mem_add.mpr (Or.inr hmem)))
  · exact Or.inr (Or.inr (hk.step ho))

theorem Tuned.step (h : Tuned c (task ::ₘ others)) (ho : c.exec x task = some o)
    (hp : Poised c others task) :
    Tuned o.connection
      ((o.next : Multiset Task) + (o.started.flatten : Multiset Task) + others) := by
  have hturn := exec_turn ho
  refine ⟨?_, ?_, ?_⟩
  · intro k hk
    refine Nat.lt_of_lt_of_le ?_ hturn.readers_le
    rcases Multiset.mem_add.mp hk with hk | hk
    · exact (h.owned k (hturn.clears hk).1).1.lt
    · exact h.made k (Multiset.mem_cons_of_mem hk)
  · intro k hk
    have hnext : .clearListener k ∉
        (o.next : Multiset Task) + (o.started.flatten : Multiset Task) := by
      intro hmem
      rw [(hturn.clears hmem).2] at hk
      cases hk
    rcases hturn.owned_reader hp hk with ⟨hown, ha⟩ | ⟨rfl, ha, port, rfl⟩
    · obtain ⟨hl, hno⟩ := h.owned k hown
      refine ⟨ha ▸ listens_stays ho hl fun he => hno (he ▸ Multiset.mem_cons_self _ _), ?_⟩
      intro hmem
      rcases Multiset.mem_add.mp hmem with hmem | hmem
      · exact hnext hmem
      · exact hno (Multiset.mem_cons_of_mem hmem)
    · refine ⟨?_, ?_⟩
      · rw [ha]
        rcases Option.some.inj ho with rfl
        exact listens_of_record
      · intro hmem
        rcases Multiset.mem_add.mp hmem with hmem | hmem
        · exact hnext hmem
        · exact absurd (h.made _ (Multiset.mem_cons_of_mem hmem)) (Nat.lt_irrefl _)
  · intro t ht k hk
    rcases Multiset.mem_add.mp ht with ht | ht
    · rcases reader_of_leaves ho ht hk with hk | hk
      · exact h.deaf_on ho hp (h.deaf task (Multiset.mem_cons_self _ _) k hk)
      · exact Or.inl hk
    · exact h.deaf_on ho hp (h.deaf t (Multiset.mem_cons_of_mem ht) k hk)

theorem tuned_of_moves (device : DeviceInfo) (config : ConnectionConfig) (prober : Prober)
    (moves : List Move) :
    Tuned (History.of (.new device config prober) moves).machine.connection
      (History.of (.new device config prober) moves).machine.pending := by
  refine (History.guarded_induction (I := fun _ c P => Tuned c P) ?_ ?_ moves).1
  · exact ⟨by simp, nofun, by simp⟩
  · intro es c others task move x o ho hp hsource
    rcases hsource with h | ⟨h, hb⟩
    · exact h.step ho hp
    · exact (h.begin hb).step ho hp

end Tuned

end SerialLink.Connection
