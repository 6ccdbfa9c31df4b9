-- Threads one by one. The tasks that are pending over all do not tell which of
-- them comes behind which; a law that needs the order within a thread is an
-- invariant of every thread on its own.
import SerialLink.Proofs.Connection.History

namespace SerialLink.Connection

/-! ## One move and its thread -/

/-- The thread that a move steps or begins. -/
def Machine.threadOf (m : Machine) (move : Move) : Nat := move.thread.getD m.threads.length

/-- A move steps the thread that is its own. -/
theorem advances_at {m m' : Machine} {move : Move} {e : Entry} (h : m.move move = some (e, m')) :
    ∃ threads task rest o,
      (threads = m.threads ∨
        threads = m.threads ++ [[task]] ∧ m.threadOf move = m.threads.length ∧
          Begins m.connection m.pending move task) ∧
      threads[m.threadOf move]? = some (task :: rest) ∧
      m.connection.exec move.outside task = some o ∧
      e = ⟨move, m.connection, task, o.effects, o.connection⟩ ∧
      m' = ⟨o.connection, threads.set (m.threadOf move) (o.next ++ rest) ++ o.started⟩ := by
  rcases move_cases h with ⟨thread, hthread, h⟩ | ⟨task, hb, h⟩
  · obtain ⟨task, rest, o, ht, ho, he, hm⟩ := enter_eq h
    have hat : m.threadOf move = thread := by rw [Machine.threadOf, hthread, Option.getD_some]
    rw [hat]
    exact ⟨m.threads, task, rest, o, Or.inl rfl, ht, ho, he, hm⟩
  · obtain ⟨task', rest, o, ht, ho, he, hm⟩ := enter_eq h
    have hnone : move.thread = none := by cases hb <;> rfl
    have hat : m.threadOf move = m.threads.length := by
      rw [Machine.threadOf, hnone, Option.getD_none]
    have hfirst : (m.threads ++ [[task]])[m.threads.length]? = some [task] :=
      List.getElem?_concat_length
    obtain ⟨rfl, rfl⟩ := List.cons.inj (Option.some.inj (hfirst.symm.trans ht))
    rw [hat]
    exact ⟨_, task, [], o, Or.inr ⟨rfl, rfl, hb⟩, hfirst, ho, he, hm⟩

/-- How a move came about, with the thread that took the step. The thread was there, or the move
began it. -/
inductive Advances (m : Machine) (move : Move) (e : Entry) (m' : Machine) : Prop
  | intro {threads : List (List Task)} {thread : Nat} {task : Task} {rest : List Task}
    {o : Outcome}
    (source : threads = m.threads ∨
      threads = m.threads ++ [[task]] ∧ Begins m.connection m.pending move task)
    (head : threads[thread]? = some (task :: rest))
    (ran : m.connection.exec move.outside task = some o)
    (entry : e = ⟨move, m.connection, task, o.effects, o.connection⟩)
    (after : m' = ⟨o.connection, threads.set thread (o.next ++ rest) ++ o.started⟩)

theorem advances_of_move {m m' : Machine} {move : Move} {e : Entry}
    (h : m.move move = some (e, m')) : Advances m move e m' := by
  obtain ⟨threads, task, rest, o, source, head, ran, he, hm⟩ := advances_at h
  exact ⟨source.imp id fun hb => ⟨hb.1, hb.2.2⟩, head, ran, he, hm⟩

/-- What holds of every thread, and of a new one, holds of the thread that takes the step. -/
theorem every_source {m : Machine} {move : Move} {task : Task} {threads : List (List Task)}
    {Q : List Task → Prop}
    (source : threads = m.threads ∨
      threads = m.threads ++ [[task]] ∧ Begins m.connection m.pending move task)
    (hm : ∀ l ∈ m.threads, Q l) (begins : Begins m.connection m.pending move task → Q [task]) :
    ∀ l ∈ threads, Q l := by
  intro l hl
  rcases source with rfl | ⟨rfl, hb⟩
  · exact hm l hl
  · rcases List.mem_append.mp hl with hl | hl
    · exact hm l hl
    · rw [List.mem_singleton.mp hl]
      exact begins hb

/-! ## Any moves -/

/-- What holds of every thread: a new thread has it, and a step leaves it to what its thread has
yet to do and to the threads that it starts. -/
theorem History.every_thread {Q : List Entry → List Task → Prop} {c : Connection}
    (mono : ∀ {es e l}, Q es l → Q (es ++ [e]) l)
    (begins : ∀ {es d others move task}, Begins d others move task → Q es [task])
    (step : ∀ {es d task rest move x o}, d.exec x task = some o → Q es (task :: rest) →
      ∀ l ∈ (o.next ++ rest) :: o.started, Q (es ++ [⟨move, d, task, o.effects, o.connection⟩]) l)
    (moves : List Move) :
    ∀ l ∈ (of c moves).machine.threads, Q (of c moves).entries l := by
  refine moves_induction (I := fun h => ∀ l ∈ h.machine.threads, Q h.entries l) (by simp) ?_ moves
  intro moves move e m' ih hm
  obtain ⟨source, head, ran, rfl, rfl⟩ := advances_of_move hm
  rename_i threads thread task rest o
  have hall : ∀ l ∈ threads, Q (of c moves).entries l := every_source source ih begins
  have hstep : ∀ l ∈ (o.next ++ rest) :: o.started, Q ((of c moves).entries ++
      [⟨move, (of c moves).machine.connection, task, o.effects, o.connection⟩]) l :=
    step ran (hall _ (List.mem_of_getElem? head))
  intro l hl
  rcases List.mem_append.mp hl with hl | hl
  · rcases List.mem_or_eq_of_mem_set hl with hl | rfl
    · exact mono (hall l hl)
    · exact hstep _ (List.mem_cons_self ..)
  · exact hstep l (List.mem_cons_of_mem _ hl)

/-! ## One thread -/

/-- A thread has its own steps only. -/
theorem thread_of_move {m m' : Machine} {move : Move} {e : Entry} {k : Nat} {l : List Task}
    (h : m.move move = some (e, m')) (hk : m.threads[k]? = some l) :
    (move.thread = some k → ∃ task rest x o, l = task :: rest ∧
      m.connection.exec x task = some o ∧
      e = ⟨move, m.connection, task, o.effects, o.connection⟩ ∧
      m'.threads[k]? = some (o.next ++ rest)) ∧
    (move.thread ≠ some k → m'.threads[k]? = some l) := by
  have hlt : k < m.threads.length := (List.getElem?_eq_some_iff.mp hk).1
  rcases move_cases h with ⟨thread, hstep, h⟩ | ⟨task, hb, h⟩
  · obtain ⟨task, rest, o, ht, ho, he, rfl⟩ := enter_eq h
    rw [hstep]
    dsimp only
    rw [getElem?_stepped hlt]
    by_cases hsame : thread = k
    · subst hsame
      refine ⟨fun _ => ⟨task, rest, _, o, ?_, ho, he, if_pos rfl⟩, fun hne => absurd rfl hne⟩
      exact Option.some.inj (hk.symm.trans ht)
    · refine ⟨fun heq => absurd (Option.some.inj heq) hsame, fun _ => ?_⟩
      rw [if_neg hsame]
      exact hk
  · have hnone : move.thread = none := by cases hb <;> rfl
    obtain ⟨task', rest, o, _, _, _, rfl⟩ := enter_eq h
    refine ⟨fun heq => absurd heq (by simp [hnone]), fun _ => ?_⟩
    dsimp only
    rw [getElem?_stepped (by rw [List.length_append]; omega), if_neg (by omega),
      List.getElem?_append_left hlt]
    exact hk

/-- What a step of a thread does while `I` holds, and leaves to its thread, is so for all steps of
that thread from here on, if every step of any thread keeps `I`. -/
theorem Machine.steps_of_thread {I : Connection → Prop} {q : Task → Prop} {P : Entry → Prop}
    (stays : ∀ {d x task o}, I d → d.exec x task = some o → I o.connection)
    (step : ∀ {d x task o}, I d → q task → d.exec x task = some o → (∀ t ∈ o.next, q t) ∧
      ∀ move, P ⟨move, d, task, o.effects, o.connection⟩)
    {m : Machine} {k : Nat} {l : List Task} (hm : I m.connection) (hk : m.threads[k]? = some l)
    (hl : ∀ t ∈ l, q t) (moves : List Move) :
    ∀ e ∈ (m.ahead moves).entries, e.move.thread = some k → P e := by
  refine (Machine.ahead_induction
    (I := fun h => I h.machine.connection ∧
      (∃ l, h.machine.threads[k]? = some l ∧ ∀ t ∈ l, q t) ∧
      ∀ e ∈ h.entries, e.move.thread = some k → P e) ⟨hm, ⟨l, hk, hl⟩, by simp⟩ ?_ moves).2.2
  rintro moves move e m' ⟨hI, ⟨l, hk, hl⟩, hentries⟩ hmove
  obtain ⟨hown, hother⟩ := thread_of_move hmove hk
  obtain ⟨ho, he, hc, _, _⟩ := makes_of_move hmove
  refine ⟨hc ▸ stays hI ho, ?_⟩
  by_cases hthread : move.thread = some k
  · obtain ⟨task, rest, x, o, rfl, ho, rfl, hk'⟩ := hown hthread
    obtain ⟨hnext, hP⟩ := step hI (hl task (List.mem_cons_self ..)) ho
    refine ⟨⟨_, hk', ?_⟩, ?_⟩
    · intro t ht
      rcases List.mem_append.mp ht with ht | ht
      · exact hnext t ht
      · exact hl t (List.mem_cons_of_mem _ ht)
    · intro f hf
      rcases List.mem_append.mp hf with hf | hf
      · exact hentries f hf
      · exact fun _ => List.mem_singleton.mp hf ▸ hP move
  · refine ⟨⟨l, hother hthread, hl⟩, ?_⟩
    intro f hf hfk
    rcases List.mem_append.mp hf with hf | hf
    · exact hentries f hf hfk
    · rw [List.mem_singleton.mp hf, he] at hfk
      exact absurd hfk hthread

end SerialLink.Connection
