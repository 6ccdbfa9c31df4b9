-- Disconnects that the registry begins. Each goes on a thread of its own and
-- never has to wait, so it is over after a bounded number of its own steps,
-- however many steps of others come between them.
import SerialLink.Proofs.Registry.Handles

namespace SerialLink

open Connection

namespace Connection

/-! ## The way to the end -/

/-- A task of an attempt that is over: it gives something back, or tells of the end. -/
def Task.isClosing : Task → Bool
  | .notify .. => true
  | t => t.isRelease

/-- The steps of a disconnect: one to end the attempt, at most four to give back what it owned, and
one to tell of it. -/
def disconnectSteps : Nat := 6

/-- A thread that disconnects and is at most so many steps from its end. -/
inductive Ends : Nat → List Task → Prop
  | begun {k : Nat} (enough : disconnectSteps ≤ k) : Ends k Call.disconnect.tasks
  | closing {k : Nat} {l : List Task} (closing : ∀ t ∈ l, t.isClosing = true)
    (enough : l.length ≤ k) : Ends k l

section Ends

variable {k : Nat} {l : List Task}

theorem Ends.more (h : Ends k l) : Ends (k + 1) l := by
  cases h with
  | begun enough => exact .begun (Nat.le_succ_of_le enough)
  | closing hall enough => exact .closing hall (Nat.le_succ_of_le enough)

theorem Ends.over (h : Ends 0 l) : l = [] := by
  cases h with
  | begun enough => cases enough
  | closing _ enough => exact List.eq_nil_of_length_eq_zero (Nat.le_zero.mp enough)

theorem closing_of_release {r : Resources} {n : Nat} {notice : Notice} :
    ∀ t ∈ releaseTasks r ++ [.notify n notice], t.isClosing = true := by
  intro t ht
  rcases List.mem_append.mp ht with ht | ht
  · rcases mem_releaseTasks.mp ht with ⟨_, _, rfl | rfl⟩ | ⟨_, _, rfl⟩ | ⟨_, _, rfl⟩ <;> rfl
  · rw [List.mem_singleton.mp ht]
    rfl

theorem length_releaseTasks (r : Resources) : (releaseTasks r).length ≤ 4 := by
  obtain ⟨drain, reader, subscription, port⟩ := r
  cases reader <;> cases subscription <;> cases port <;> simp [releaseTasks]

/-- The next step can be taken, whatever the outside answers, and is one less to the end. -/
theorem Ends.exec {task : Task} {rest : List Task} (h : Ends (k + 1) (task :: rest))
    (c : Connection) (x : Outside) : ∃ o, c.exec x task = some o ∧ Ends k (o.next ++ rest) := by
  cases h with
  | begun enough =>
    refine ⟨c.stepTeardown none, rfl, ?_⟩
    rw [List.append_nil]
    unfold stepTeardown
    split
    · refine .closing closing_of_release ?_
      have := length_releaseTasks c.session.resources
      unfold disconnectSteps at enough
      rw [List.length_append, List.length_singleton]
      show (releaseTasks c.session.resources).length + 1 ≤ k
      omega
    · exact .closing (by simp) (Nat.zero_le _)
  | closing hall enough =>
    have hrest : Ends k rest :=
      .closing (fun t ht => hall t (List.mem_cons_of_mem _ ht)) (Nat.le_of_succ_le_succ enough)
    have htask := hall task (List.mem_cons_self ..)
    cases task with
    | notify | clearListener | stopReader | unsubscribe | closePort => exact ⟨_, rfl, hrest⟩
    | _ => cases htask

end Ends

namespace World

/-- A thread whose next task need not wait takes a step. -/
theorem step_of_exec {w : World} {n thread : Nat} {c : Connection} {x : Outside} {task : Task}
    {rest : List Task} {o : Outcome} (hc : w.connection? n = some c)
    (ht : w.thread? n thread = some (task :: rest)) (ho : c.exec (w.numbered x) task = some o) :
    ∃ effects w', w.step n thread x = some (effects, w') ∧
      w'.thread? n thread = some (o.next ++ rest) := by
  unfold connection? at hc
  obtain ⟨m, hm, rfl⟩ := Option.map_eq_some_iff.mp hc
  unfold thread? at ht
  rw [hm, Option.bind_some] at ht
  obtain ⟨hn, -⟩ := List.getElem?_eq_some_iff.mp hm
  obtain ⟨hthread, -⟩ := List.getElem?_eq_some_iff.mp ht
  unfold step Machine.step
  simp only [hm, ht, ho, Option.bind_eq_bind, Option.bind_some, Option.map_some]
  refine ⟨_, _, rfl, ?_⟩
  unfold thread?
  rw [machines_applied, List.getElem?_set_self hn, Option.bind_some, getElem?_stepped hthread,
    if_pos rfl]

/-- Each connection in a list that is disconnected has a thread for it. -/
theorem thread_of_disconnects {w : World} {numbers : List Nat} {n : Nat} (hmem : n ∈ numbers)
    (hmade : (w.connection? n).isSome) :
    ∃ thread, (w.disconnects numbers).thread? n thread = some Call.disconnect.tasks := by
  induction numbers generalizing w with
  | nil => cases hmem
  | cons k rest ih =>
    have hstarted := started_spawn w k Call.disconnect.tasks
    rcases List.mem_cons.mp hmem with rfl | hmem
    · rw [connection?, Option.isSome_map] at hmade
      obtain ⟨m, hm⟩ := Option.isSome_iff_exists.mp hmade
      have hthread := (thread?_spawn hm Call.disconnect.tasks).2
      exact ⟨_, (started_disconnects _ rest).threads hthread⟩
    · exact ih hmem (by rw [hstarted.connections n]; exact hmade)

theorem step_of_ended {w : World} {n thread : Nat} (ht : w.thread? n thread = some [])
    (x : Outside) : w.step n thread x = none := by
  obtain ⟨m, hm, ht⟩ := Option.bind_eq_some_iff.mp ht
  unfold step Machine.step
  simp [hm, ht]

end World

end Connection

namespace Fleet

/-! ## The thread of a disconnect -/

/-- The act is a step of this thread. -/
def Act.isStepOf (n thread : Nat) : Act → Bool
  | .step k t _ => k == n && t == thread
  | _ => false

theorem step_of_isStepOf {a : Act} {n thread : Nat} (h : a.isStepOf n thread = true) :
    ∃ x, a = .step n thread x := by
  cases a with
  | step k t x =>
    simp only [Act.isStepOf, Bool.and_eq_true, beq_iff_eq] at h
    exact ⟨x, by rw [h.1, h.2]⟩
  | _ => cases h

/-- A thread that disconnects, at most so many of its own steps from its end. -/
def Ending (f : Fleet) (n thread k : Nat) : Prop :=
  ∃ l, f.world.thread? n thread = some l ∧ Ends k l

section Ending

variable {f : Fleet} {config : ConnectionConfig} {past since : List Act} {n thread k : Nat}

/-- Its own step brings it one nearer to its end. -/
theorem Ending.own (h : f.Ending n thread (k + 1)) (x : Outside) :
    (f.act (.step n thread x)).Ending n thread k := by
  obtain ⟨l, hl, hends⟩ := h
  rcases l with _ | ⟨task, rest⟩
  · refine ⟨[], ?_, .closing (by simp) (Nat.zero_le _)⟩
    rw [act, World.step_of_ended hl]
    exact hl
  · obtain ⟨m, hm, _⟩ := Option.bind_eq_some_iff.mp hl
    have hc : f.world.connection? n = some m.connection := by
      rw [World.connection?, hm]
      rfl
    obtain ⟨o, ho, hless⟩ := hends.exec m.connection (f.world.numbered x)
    obtain ⟨effects, w', hstep, hthread⟩ := World.step_of_exec hc hl ho
    refine ⟨o.next ++ rest, ?_, hless⟩
    rw [act, hstep]
    exact hthread

/-- No act takes it further from its end. -/
theorem Ending.stay (h : f.Ending n thread k) (a : Act) : (f.act a).Ending n thread k := by
  have hsame : (∀ {l}, f.world.thread? n thread = some l →
      (f.act a).world.thread? n thread = some l) → (f.act a).Ending n thread k := by
    intro hkeep
    obtain ⟨l, hl, hends⟩ := h
    exact ⟨l, hkeep hl, hends⟩
  generalize hf : f.act a = f' at hsame ⊢
  have hdoes := does_act f a
  rw [hf] at hdoes
  cases hdoes with
  | started world => exact hsame world.threads
  | made _ world => exact hsame fun hl => by rw [world]; exact World.thread?_add hl
  | @stepped m t x _ _ world =>
    by_cases hown : n = m ∧ thread = t
    · obtain ⟨rfl, rfl⟩ := hown
      obtain ⟨l, hl, hends⟩ := h
      rw [← hf]
      exact Ending.own ⟨l, hl, hends.more⟩ x
    · exact hsame fun hl => world.threads (fun hn ht => hown ⟨hn, ht⟩) hl

/-- Each of its own steps counts, whatever comes between them. -/
theorem Ending.later (h : (of config past).Ending n thread k) (since : List Act) :
    (of config (past ++ since)).Ending n thread (k - since.countP (·.isStepOf n thread)) := by
  induction since using List.reverseRecOn with
  | nil => rwa [List.append_nil]
  | append_singleton since a ih =>
    rw [← List.append_assoc, of_append, List.countP_append, List.countP_singleton]
    rcases ha : a.isStepOf n thread with _ | _
    · exact ih.stay a
    · rcases hk : k - since.countP (·.isStepOf n thread) with _ | left
      · have hzero : k - (since.countP (·.isStepOf n thread) + 1) = 0 := by omega
        rw [if_pos rfl, hzero]
        exact (hk ▸ ih).stay a
      · have hless : k - (since.countP (·.isStepOf n thread) + 1) = left := by omega
        rw [if_pos rfl, hless]
        obtain ⟨x, rfl⟩ := step_of_isStepOf ha
        exact (hk ▸ ih).own x

theorem Ending.ended (h : (of config past).Ending n thread k) (since : List Act)
    (enough : k ≤ since.countP (·.isStepOf n thread)) :
    (of config (past ++ since)).world.thread? n thread = some [] := by
  obtain ⟨l, hl, hends⟩ := h.later since
  rw [Nat.sub_eq_zero_of_le enough] at hends
  rw [hl, hends.over]

/-- What becomes of a disconnect that was begun. -/
structure Disconnects (config : ConnectionConfig) (past : List Act) (n thread : Nat) : Prop where
  /-- It ends with its last step, whatever comes between and whatever the outside answers. -/
  ends : ∀ since : List Act, disconnectSteps ≤ since.countP (·.isStepOf n thread) →
    (of config (past ++ since)).world.thread? n thread = some []
  /-- Once it has ended the connection is at rest, unless it was connected again. -/
  rests : ∀ since, (of config (past ++ since)).world.thread? n thread = some [] →
    (of config (past ++ since)).live n = false ∨ Reconnected config past since n

theorem disconnects_of_begun
    (h : (of config past).world.thread? n thread = some Call.disconnect.tasks) :
    Disconnects config past n thread := by
  constructor
  case ends =>
    have hending : (of config past).Ending n thread disconnectSteps :=
      ⟨_, h, .begun (Nat.le_refl _)⟩
    exact hending.ended
  case rests =>
    intro since hended
    rcases rests_behind_disconnect h since with hbegun | hrest
    · rw [hended] at hbegun
      cases hbegun
    · exact hrest

/-- A disconnect of all starts a thread for each registered connection. -/
theorem disconnect_of_all (hmem : n ∈ (of config past).registry.numbers)
    (hmade : ((of config past).world.connection? n).isSome) :
    ∃ thread, (of config (past ++ [.disconnectAll])).world.thread? n thread =
      some Call.disconnect.tasks := by
  rw [of_append]
  exact World.thread_of_disconnects hmem hmade

end Ending

end Fleet

end SerialLink
