-- A connection without its writes. The threads that write only look at the
-- session, so they can be taken out of any history: what the others do is a
-- history of its own, with the same steps, the same callbacks and the same
-- state behind every one of them.
import SerialLink.Proofs.Connection.Writes

namespace SerialLink.Connection

/-! ## Threads that do not write -/

def Move.isWrite : Move → Bool
  | .call (.write _) _ => true
  | _ => false

/-- A thread with something to do and nothing of it a write. -/
def isBare (l : List Task) : Bool := !l.isEmpty && l.all fun t => !t.isWrite

/-- The threads that do not write, in no order. -/
def bare (threads : List (List Task)) : Multiset (List Task) := (threads.filter isBare : List _)

theorem isBare_iff {l : List Task} :
    isBare l = true ↔ l ≠ [] ∧ ∀ t ∈ l, t.isWrite = false := by
  simp [isBare]

theorem mem_bare {threads : List (List Task)} {l : List Task} :
    l ∈ bare threads ↔ l ∈ threads ∧ isBare l = true := by
  simp [bare]

theorem bare_append (threads more : List (List Task)) :
    bare (threads ++ more) = bare threads + bare more := by
  simp [bare]

theorem bare_write {l : List Task} {t : Task} (ht : t ∈ l) (h : t.isWrite = true) :
    bare [l] = 0 := by
  have hno : isBare l = false := by
    apply eq_false_of_ne_true
    intro hb
    rw [(isBare_iff.mp hb).2 t ht] at h
    cases h
  simp [bare, hno]

/-- One thread among the others, and what comes of them when it is another. -/
theorem bare_split {threads : List (List Task)} {thread : Nat} {l : List Task}
    (h : threads[thread]? = some l) :
    ∃ others, bare threads = bare [l] + others ∧
      ∀ l' started,
        bare (threads.set thread l' ++ started) = bare [l'] + bare started + others := by
  obtain ⟨hlt, hget⟩ := List.getElem?_eq_some_iff.mp h
  refine ⟨bare (threads.take thread) + bare (threads.drop (thread + 1)), ?_, fun l' started => ?_⟩
  · have hsplit : threads = threads.take thread ++ ([l] ++ threads.drop (thread + 1)) := by
      rw [← hget, List.singleton_append, ← List.drop_eq_getElem_cons hlt, List.take_append_drop]
    calc
      bare threads = bare (threads.take thread ++ ([l] ++ threads.drop (thread + 1))) :=
        congrArg bare hsplit
      _ = _ := by
        rw [bare_append, bare_append]
        ac_rfl
  · have hset : threads.set thread l' =
        threads.take thread ++ ([l'] ++ threads.drop (thread + 1)) := by
      rw [List.set_eq_take_append_cons_drop, if_pos hlt, List.singleton_append]
    rw [hset, bare_append, bare_append, bare_append]
    ac_rfl

/-! ## One step of either -/

/-- An entry without the number of its thread. -/
def Entry.unnumbered (e : Entry) : Entry :=
  { e with move := match e.move with
      | .step _ x => .step 0 x
      | move => move }

/-- What a thread of one machine can begin, one of another machine with the same connection can,
where nobody else is inside. -/
theorem move_of_begins {m : Machine} {others : Multiset Task} {move : Move} {task : Task}
    {o : Outcome} (hb : Begins m.connection others move task)
    (hsub : ∀ t ∈ m.threads.flatten, t ∈ others)
    (ho : m.connection.exec move.outside task = some o) :
    m.move move = some (⟨move, m.connection, task, o.effects, o.connection⟩,
      ⟨o.connection,
        (m.threads ++ [[task]]).set m.threads.length (o.next ++ []) ++ o.started⟩) := by
  have hbegin : m.begin move [task] move.outside =
      some (⟨move, m.connection, task, o.effects, o.connection⟩,
        ⟨o.connection, (m.threads ++ [[task]]).set m.threads.length (o.next ++ []) ++ o.started⟩) :=
    enter_of_exec (m := { m with threads := m.threads ++ [[task]] })
      List.getElem?_concat_length ho
  rw [← hbegin]
  cases hb with
  | connect held | disconnect held | write held =>
    simp [Machine.move, Machine.takesCall, held, Call.tasks, Move.outside]
  | drop held free =>
    have hfree : m.isFree = true := by
      rw [Machine.isFree, List.all_eq_true]
      exact fun t ht => free t (hsub t ht)
    simp [Machine.move, Machine.takesCall, held, hfree, Call.tasks, Move.outside]
  | event own => simp [Machine.move, own, Move.outside]
  | readError held => simp [Machine.move, held, Move.outside]

/-- A step of a write changes nothing of the connection and starts no thread; what is seen of it is
the write. -/
structure Outcome.Inert (o : Outcome) (c : Connection) (data : Bytes) : Prop where
  connection : o.connection = c
  started : o.started = []
  next : ∀ t ∈ o.next, t.isWrite = true
  effects : ∀ e ∈ o.effects, (e.mark? data).isSome

theorem inert_of_exec {c : Connection} {x : Outside} {task : Task} {o : Outcome}
    (ho : c.exec x task = some o) (ht : task.isWrite = true) : o.Inert c task.payload := by
  cases task with
  | write data =>
    obtain rfl := Option.some.inj ho
    rcases stepWrite_eq c data with ⟨port, _, _, heq⟩ | ⟨_, heq⟩ <;> rw [heq] <;>
      constructor <;> simp [Task.isWrite, Effect.mark?]
  | send port data =>
    obtain rfl := Option.some.inj ho
    constructor <;> simp [stepSend, Effect.mark?]
  | finish result =>
    obtain rfl := Option.some.inj ho
    cases result with
    | connect => cases ht
    | write => constructor <;> simp [Effect.mark?]
  | _ => cases ht

theorem isWrite_of_begins {c : Connection} {others : Multiset Task} {move : Move} {task : Task}
    (hb : Begins c others move task) : move.isWrite = task.isWrite := by
  cases hb <;> rfl

/-! ## A history and the same without writes -/

/-- The second history is the first one without its writes. -/
structure Mirrors (h others : History) : Prop where
  connection : others.machine.connection = h.machine.connection
  entries : others.entries.map Entry.unnumbered =
    (h.entries.filter fun e => !e.task.isWrite).map Entry.unnumbered
  threads : bare others.machine.threads = bare h.machine.threads
  unwritten : ∀ l ∈ others.machine.threads, ∀ t ∈ l, t.isWrite = false

section Mirrors

variable {h others : History} {move : Move} {task : Task} {rest : List Task} {o : Outcome}
  {threads : List (List Task)} {thread : Nat}

theorem extend_of_move {g : History} {e : Entry} {m' : Machine}
    (hm : g.machine.move move = some (e, m')) :
    g.extend move = { entries := g.entries ++ [e], machine := m' } := by
  unfold History.extend
  rw [hm]

/-- A step of a write is passed over. -/
theorem Mirrors.skip (hmirror : Mirrors h others) (move : Move)
    (source : bare threads = bare h.machine.threads)
    (head : threads[thread]? = some (task :: rest)) (ht : task.isWrite = true)
    (hrest : ∀ t ∈ rest, t.isWrite = true)
    (ran : h.machine.connection.exec move.outside task = some o) :
    Mirrors
      { entries := h.entries ++ [⟨move, h.machine.connection, task, o.effects, o.connection⟩]
        machine := ⟨o.connection, threads.set thread (o.next ++ rest) ++ o.started⟩ } others := by
  have hinert := inert_of_exec ran ht
  obtain ⟨others', hbefore, hafter⟩ := bare_split head
  have hleft : bare [o.next ++ rest] = 0 := by
    rcases hl : o.next ++ rest with _ | ⟨t, l⟩
    · rfl
    · apply bare_write (List.mem_cons_self ..)
      have hmem : t ∈ o.next ++ rest := hl ▸ List.mem_cons_self ..
      rcases List.mem_append.mp hmem with hmem | hmem
      · exact hinert.next t hmem
      · exact hrest t hmem
  refine ⟨hmirror.connection.trans hinert.connection.symm, ?_, ?_, hmirror.unwritten⟩
  · simp only [List.filter_append, List.filter_singleton, ht, Bool.not_true, cond_false,
      List.append_nil]
    exact hmirror.entries
  · dsimp only
    rw [hmirror.threads, hafter, hleft, hinert.started, ← source, hbefore,
      bare_write (List.mem_cons_self ..) ht]
    rfl

/-- A step of another thread is made in the second history as well. -/
theorem Mirrors.follow (hmirror : Mirrors h others) (move move' : Move)
    {threads' : List (List Task)} {thread' : Nat}
    (source : bare threads' = bare threads)
    (hthreads' : ∀ l ∈ threads', ∀ t ∈ l, t.isWrite = false)
    (head : threads[thread]? = some (task :: rest))
    (head' : threads'[thread']? = some (task :: rest)) (ht : task.isWrite = false)
    (ran : h.machine.connection.exec move.outside task = some o)
    (hsame : Entry.unnumbered ⟨move', h.machine.connection, task, o.effects, o.connection⟩ =
      Entry.unnumbered ⟨move, h.machine.connection, task, o.effects, o.connection⟩) :
    Mirrors
      { entries := h.entries ++ [⟨move, h.machine.connection, task, o.effects, o.connection⟩]
        machine := ⟨o.connection, threads.set thread (o.next ++ rest) ++ o.started⟩ }
      { entries := others.entries ++
          [⟨move', h.machine.connection, task, o.effects, o.connection⟩]
        machine := ⟨o.connection, threads'.set thread' (o.next ++ rest) ++ o.started⟩ } := by
  have hu := unwritten_of_exec ran ht
  obtain ⟨left, hbefore, hafter⟩ := bare_split head
  obtain ⟨left', hbefore', hafter'⟩ := bare_split head'
  refine ⟨rfl, ?_, ?_, ?_⟩
  · simp only [List.filter_append, List.filter_singleton, ht, Bool.not_false, cond_true,
      List.map_append, List.map_singleton, hsame, hmirror.entries]
  · dsimp only
    have hleft : left' = left := by
      rw [hbefore, hbefore'] at source
      exact add_left_cancel source
    rw [hafter, hafter', hleft]
  · intro l hl
    rcases List.mem_append.mp hl with hl | hl
    · rcases List.mem_or_eq_of_mem_set hl with hl | rfl
      · exact hthreads' l hl
      · intro t hmem
        rcases List.mem_append.mp hmem with hmem | hmem
        · exact hu.next t hmem
        · exact hthreads' _ (List.mem_of_getElem? head') t (List.mem_cons_of_mem _ hmem)
    · exact hu.started l hl

/-- The tasks of the second history are tasks of the first. -/
theorem Mirrors.pending (hmirror : Mirrors h others) :
    ∀ t ∈ others.machine.threads.flatten, t ∈ h.machine.pending := by
  intro t ht
  obtain ⟨l, hl, hmem⟩ := List.mem_flatten.mp ht
  have hbare : l ∈ bare others.machine.threads :=
    mem_bare.mpr ⟨hl, isBare_iff.mpr ⟨List.ne_nil_of_mem hmem, hmirror.unwritten l hl⟩⟩
  rw [hmirror.threads] at hbare
  exact Multiset.mem_coe.mpr (List.mem_flatten.mpr ⟨l, (mem_bare.mp hbare).1, hmem⟩)

end Mirrors

/-- A thread that writes has nothing else to do. -/
def Alone (l : List Task) : Prop :=
  (∀ t ∈ l, t.isWrite = true) ∨ ∀ t ∈ l, t.isWrite = false

theorem alone_of_course {timeout : Nat} {marks : List Mark} {l : List Task}
    (h : WriteCourse timeout marks l) : Alone l := by
  cases h with
  | other hother => exact Or.inr hother
  | underWay => exact Or.inl (by simp [Task.isWrite])
  | refused | answered => exact Or.inl (by simp)

theorem step_of_thread {m : Machine} {move : Move} (h : m.threadOf move < m.threads.length) :
    move = .step (m.threadOf move) move.outside := by
  cases move with
  | step thread x => rfl
  | _ => exact absurd h (Nat.lt_irrefl _)

section Move

variable {h others : History} {move : Move} {task : Task} {o : Outcome}

/-- A step of a thread that is there. -/
theorem Mirrors.of_step {rest : List Task} {thread : Nat} {x : Outside}
    (hmirror : Mirrors h others) (halone : Alone (task :: rest))
    (head : h.machine.threads[thread]? = some (task :: rest))
    (ran : h.machine.connection.exec x task = some o) :
    ∃ more : List Move, (∀ move ∈ more, move.isWrite = false) ∧ Mirrors
      { entries := h.entries ++
          [⟨.step thread x, h.machine.connection, task, o.effects, o.connection⟩]
        machine := ⟨o.connection, h.machine.threads.set thread (o.next ++ rest) ++ o.started⟩ }
      (more.foldl History.extend others) := by
  rcases halone with hwrite | hother
  · refine ⟨[], by simp, hmirror.skip (.step thread x) rfl head ?_ ?_ ran⟩
    · exact hwrite task (List.mem_cons_self ..)
    · exact fun t ht => hwrite t (List.mem_cons_of_mem _ ht)
  · have hbare : isBare (task :: rest) = true :=
      isBare_iff.mpr ⟨List.cons_ne_nil _ _, hother⟩
    have hmem : task :: rest ∈ bare others.machine.threads := by
      rw [hmirror.threads]
      exact mem_bare.mpr ⟨List.mem_of_getElem? head, hbare⟩
    obtain ⟨k, head'⟩ := List.mem_iff_getElem?.mp (mem_bare.mp hmem).1
    refine ⟨[.step k x], by simp [Move.isWrite], ?_⟩
    have hmove : others.machine.move (.step k x) = _ :=
      enter_of_exec head' (by rw [hmirror.connection]; exact ran)
    rw [List.foldl_cons, List.foldl_nil, extend_of_move hmove, hmirror.connection]
    exact hmirror.follow (.step thread x) (.step k x) hmirror.threads hmirror.unwritten head head'
      (hother task (List.mem_cons_self ..)) ran rfl

/-- The first step of a new thread. -/
theorem Mirrors.of_begins (hmirror : Mirrors h others)
    (hb : Begins h.machine.connection h.machine.pending move task)
    (ran : h.machine.connection.exec move.outside task = some o) :
    ∃ more : List Move, (∀ move ∈ more, move.isWrite = false) ∧ Mirrors
      { entries := h.entries ++ [⟨move, h.machine.connection, task, o.effects, o.connection⟩]
        machine := ⟨o.connection, (h.machine.threads ++ [[task]]).set h.machine.threads.length
          (o.next ++ []) ++ o.started⟩ }
      (more.foldl History.extend others) := by
  rcases hw : task.isWrite with _ | _
  · refine ⟨[move], by simp [isWrite_of_begins hb, hw], ?_⟩
    have hmove := move_of_begins (m := others.machine) (by rw [hmirror.connection]; exact hb)
      hmirror.pending (by rw [hmirror.connection]; exact ran)
    rw [List.foldl_cons, List.foldl_nil, extend_of_move hmove, hmirror.connection]
    apply hmirror.follow move move _ _ List.getElem?_concat_length
      List.getElem?_concat_length hw ran rfl
    · rw [bare_append, bare_append, hmirror.threads]
    · intro l hl
      rcases List.mem_append.mp hl with hl | hl
      · exact hmirror.unwritten l hl
      · rw [List.mem_singleton.mp hl]
        simpa using hw
  · refine ⟨[], by simp, ?_⟩
    refine hmirror.skip move ?_ List.getElem?_concat_length hw (by simp) ran
    rw [bare_append, bare_write (List.mem_singleton_self task) hw, add_zero]

end Move

/-! ## Callbacks -/

/-- The effect is a callback: a notice, or bytes for the consumer. -/
def Effect.isCallback : Effect → Bool
  | .notified .. | .delivered .. => true
  | _ => false

/-- The callbacks made so far, in order. -/
def History.callbacks (h : History) : List Effect := h.effects.filter Effect.isCallback

theorem isCallback_of_mark {e : Effect} {data : Bytes} (h : (e.mark? data).isSome) :
    e.isCallback = false := by
  cases e <;> first | rfl | cases h

/-- What a step does to the connection and to its consumer, if it is one of a write: nothing. -/
def Entry.Inert (e : Entry) : Prop :=
  e.task.isWrite = true → e.after = e.before ∧ ∀ f ∈ e.effects, f.isCallback = false

theorem inert_of_moves (c : Connection) (moves : List Move) :
    ∀ e ∈ (History.of c moves).entries, e.Inert := by
  refine History.moves_induction (I := fun h => ∀ e ∈ h.entries, e.Inert) (by simp) ?_ moves
  intro moves move e m' ih hm f hf
  rcases List.mem_append.mp hf with hf | hf
  · exact ih f hf
  · rw [List.mem_singleton.mp hf]
    obtain ⟨ran, rfl, -, -, -⟩ := makes_of_move hm
    intro hw
    have hinert := inert_of_exec ran hw
    exact ⟨hinert.connection, fun g hg => isCallback_of_mark (hinert.effects g hg)⟩

theorem callbacks_filter {es : List Entry} (h : ∀ e ∈ es, e.Inert) :
    ((es.filter fun e => !e.task.isWrite).flatMap (·.effects)).filter Effect.isCallback =
      (es.flatMap (·.effects)).filter Effect.isCallback := by
  induction es with
  | nil => rfl
  | cons e es ih =>
    have hrest := ih fun f hf => h f (List.mem_cons_of_mem _ hf)
    rw [List.flatMap_cons, List.filter_append, ← hrest, List.filter_cons]
    cases hw : e.task.isWrite with
    | false => simp
    | true =>
      have hnone : e.effects.filter Effect.isCallback = [] := by
        rw [List.filter_eq_nil_iff]
        intro f hf
        simp [(h e (List.mem_cons_self ..) hw).2 f hf]
      simp [hnone]

/-- The callbacks of both are the same. -/
theorem Mirrors.callbacks {h others : History} (hmirror : Mirrors h others)
    (hinert : ∀ e ∈ h.entries, e.Inert) : others.callbacks = h.callbacks := by
  have heffects : ∀ es : List Entry, es.flatMap (·.effects) =
      (es.map Entry.unnumbered).flatMap (·.effects) := fun es => by
    rw [List.flatMap_map]
    rfl
  unfold History.callbacks History.effects
  rw [heffects, hmirror.entries, ← heffects, callbacks_filter hinert]

/-! ## Any moves -/

/-- Any history is one without writes, once its writes are left out. -/
theorem mirrors_of_moves (device : DeviceInfo) (config : ConnectionConfig) (prober : Prober)
    (moves : List Move) : ∃ others : List Move, (∀ move ∈ others, move.isWrite = false) ∧
      Mirrors (History.of (.new device config prober) moves)
        (History.of (.new device config prober) others) := by
  induction moves using List.reverseRecOn with
  | nil => exact ⟨[], by simp, rfl, rfl, rfl, by simp [History.of]⟩
  | append_singleton moves move ih =>
    obtain ⟨others, hothers, hmirror⟩ := ih
    suffices ∃ more : List Move, (∀ move ∈ more, move.isWrite = false) ∧
        Mirrors (History.of (.new device config prober) (moves ++ [move]))
          (more.foldl History.extend (History.of (.new device config prober) others)) by
      obtain ⟨more, hmore, h⟩ := this
      refine ⟨others ++ more, ?_, ?_⟩
      · intro move hmem
        rcases List.mem_append.mp hmem with hmem | hmem
        · exact hothers move hmem
        · exact hmore move hmem
      · have hsplit : History.of (.new device config prober) (others ++ more) =
            more.foldl History.extend (History.of (.new device config prober) others) := by
          rw [History.of, List.foldl_append]
          rfl
        rw [hsplit]
        exact h
    rw [History.of_snoc]
    unfold History.extend
    split
    case h_2 => exact ⟨[], by simp, hmirror⟩
    case h_1 e m' hm =>
      obtain ⟨threads, task, rest, o, source, head, ran, rfl, rfl⟩ := advances_at hm
      rcases source with rfl | ⟨rfl, hat, hb⟩
      · have hcourse := (kept_of_moves device config prober moves).course
          ((History.of (.new device config prober) moves).machine.threadOf move)
        rw [Log.history_of, head, Option.getD_some] at hcourse
        have hstep := step_of_thread (List.getElem?_eq_some_iff.mp head).1
        rw [hstep]
        exact hmirror.of_step (alone_of_course hcourse) head ran
      · rw [hat] at head ⊢
        obtain ⟨-, rfl⟩ := List.cons.inj (Option.some.inj
          (List.getElem?_concat_length.symm.trans head))
        exact hmirror.of_begins hb ran

end SerialLink.Connection
