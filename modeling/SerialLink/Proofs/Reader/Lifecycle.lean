-- The life of a reader with its threads. It is started, stopped and given another
-- listener from outside, while the threads take their steps over a port that may
-- answer anything, or nothing. One thread is alive at a time, the state says
-- whether one is, and what a thread may still call is bounded by where it stands.
import SerialLink.Reader

namespace SerialLink.Reader

variable {Listener : Type}

/-! ## A reader and its threads -/

/-- What happens next. -/
inductive Act (Listener : Type)
  | start (made : Except String Unit)
  | stop
  | setListener (listener : Option Listener)
  /-- A step of the thread of this run, while a read of so many bytes would bring `answer`. -/
  | step (run : Nat) (answer : Nat → Option (Except PortError Bytes))
  /-- The thread of this run breaks off, before its first step, in the port or in the listener, and
  is on its way out. -/
  | crash (run : Nat)

/-- What is seen of a run. -/
inductive Sight (Listener : Type)
  | returned (run : Nat) (answer : Except PortError Bytes)
  | newData (run : Nat) (listener : Listener) (bytes : Bytes)
  | runError (run : Nat) (listener : Listener) (e : PortError)

namespace Sight

def run : Sight Listener → Nat
  | .returned run _ | .newData run .. | .runError run .. => run

def isNewData : Sight Listener → Bool
  | .newData .. => true
  | _ => false

/-- A read came back with an error. -/
def isFailure : Sight Listener → Bool
  | .returned _ (.error _) => true
  | _ => false

def isRunError : Sight Listener → Bool
  | .runError .. => true
  | _ => false

/-- The listener is called. -/
def isCall (x : Sight Listener) : Bool := x.isNewData || x.isRunError

end Sight

/-- What a read of the thread that stands here comes back with. -/
def Point.answered (run : Nat) (answer : Option (Except PortError Bytes)) :
    Point Listener → List (Sight Listener)
  | .reading => answer.toList.map (.returned run)
  | _ => []

/-- Where the thread stands behind the step, unless it is gone. -/
def Next.point? : Next Listener → Option (Point Listener)
  | .goto point | .newData _ _ point | .runError _ _ point => some point
  | .done => none

/-- The call of the listener in the step. -/
def Next.call (run : Nat) : Next Listener → List (Sight Listener)
  | .newData listener bytes _ => [.newData run listener bytes]
  | .runError listener e _ => [.runError run listener e]
  | _ => []

/-- A reader and the threads of its runs, oldest first. -/
structure Life (Listener : Type) where
  reader : Reader Listener
  /-- Where each thread stands, until it is gone. -/
  threads : List (Option (Point Listener)) := []

namespace Life

/-- Where the thread of a run stands, if it is alive. -/
def point (h : Life Listener) (run : Nat) : Option (Point Listener) := (h.threads[run]?).join

/-- What is seen of an act, and what it leaves. A thread that is gone or waits is passed over. -/
def perform (h : Life Listener) : Act Listener → List (Sight Listener) × Life Listener
  | .start made =>
    match h.reader.start made with
    | (.ok (), reader) => ([], { reader, threads := h.threads ++ [some .checking] })
    | (.error _, reader) => ([], { h with reader })
  | .stop => ([], { h with reader := h.reader.stop })
  | .setListener listener => ([], { h with reader := h.reader.setListener listener })
  | .step n answer =>
    match h.point n with
    | none => ([], h)
    | some point =>
      match h.reader.step answer point with
      | none => ([], h)
      | some (next, reader) =>
        (point.answered n (answer h.reader.size) ++ next.call n,
          { reader, threads := h.threads.set n next.point? })
  | .crash n =>
    match h.point n with
    | none => ([], h)
    | some _ => ([], { h with threads := h.threads.set n (some .leaving) })

/-- What some acts leave. -/
def after (h : Life Listener) (acts : List (Act Listener)) : Life Listener :=
  acts.foldl (fun h act => (h.perform act).2) h

/-- All that is seen of some acts. -/
def seen : Life Listener → List (Act Listener) → List (Sight Listener)
  | _, [] => []
  | h, act :: acts => (h.perform act).1 ++ (h.perform act).2.seen acts

/-- A reader that was never started. -/
def begin (size : Nat) (listener : Option Listener) : Life Listener :=
  { reader := .new size listener }

end Life

/-! ## What one step of a thread can do -/

/-- The steps of the thread of run `n`: from where, what is seen, and to where. -/
inductive Walk (n : Nat) (r : Reader Listener) :
    Point Listener → List (Sight Listener) → Option (Point Listener) → Prop
  | goOn : r.state = .running → Walk n r .checking [] (some .reading)
  | giveUp : r.state ≠ .running → Walk n r .checking [] (some .leaving)
  | nothing : Walk n r .reading [.returned n (.ok [])] (some .checking)
  | bytes (bytes : Bytes) : Walk n r .reading [.returned n (.ok bytes)] (some (.received bytes))
  | error (e : PortError) : Walk n r .reading [.returned n (.error e)] (some (.failed e))
  | fetch (listener : Listener) (bytes : Bytes) : r.listener = some listener →
      Walk n r (.received bytes) [] (some (.delivering listener bytes))
  | unheard (bytes : Bytes) : r.listener = none → Walk n r (.received bytes) [] (some .checking)
  | give (listener : Listener) (bytes : Bytes) :
      Walk n r (.delivering listener bytes) [.newData n listener bytes] (some .checking)
  | hush (e : PortError) : r.state = .stopping → Walk n r (.failed e) [] (some .leaving)
  | report (e : PortError) : r.state ≠ .stopping → Walk n r (.failed e) [] (some (.reporting e))
  | fetchForError (listener : Listener) (e : PortError) : r.listener = some listener →
      Walk n r (.reporting e) [] (some (.telling listener e))
  | unheardError (e : PortError) : r.listener = none → Walk n r (.reporting e) [] (some .leaving)
  | tell (listener : Listener) (e : PortError) :
      Walk n r (.telling listener e) [.runError n listener e] (some .leaving)
  | leave : Walk n r .leaving [] none

/-- A step is one of the walks. It changes the reader only where the thread goes. -/
theorem walk_of_step {r r' : Reader Listener} {answer : Nat → Option (Except PortError Bytes)}
    {point : Point Listener} {next : Next Listener} (n : Nat)
    (h : r.step answer point = some (next, r')) :
    Walk n r point (point.answered n (answer r.size) ++ next.call n) next.point? ∧
      r' = if next.point? = none then { r with state := .stopped } else r := by
  cases point with
  | checking =>
    obtain ⟨rfl, rfl⟩ := Prod.mk.inj (Option.some.inj h)
    refine ⟨?_, rfl⟩
    by_cases hr : r.state = .running
    · rw [if_pos hr]
      exact .goOn hr
    · rw [if_neg hr]
      exact .giveUp hr
  | reading =>
    unfold Reader.step at h
    dsimp only at h
    rcases ha : answer r.size with _ | e | _ | ⟨b, bytes⟩ <;> rw [ha] at h
    · cases h
    all_goals
      obtain ⟨rfl, rfl⟩ := Prod.mk.inj (Option.some.inj h)
      refine ⟨?_, rfl⟩
    · exact .error e
    · exact .nothing
    · exact .bytes (b :: bytes)
  | received bytes =>
    unfold Reader.step at h
    dsimp only at h
    rcases hl : r.listener with _ | listener <;> rw [hl] at h
    all_goals obtain ⟨rfl, rfl⟩ := Prod.mk.inj (Option.some.inj h)
    · exact ⟨.unheard bytes hl, rfl⟩
    · exact ⟨.fetch listener bytes hl, rfl⟩
  | delivering listener bytes =>
    obtain ⟨rfl, rfl⟩ := Prod.mk.inj (Option.some.inj h)
    exact ⟨.give listener bytes, rfl⟩
  | failed e =>
    obtain ⟨rfl, rfl⟩ := Prod.mk.inj (Option.some.inj h)
    refine ⟨?_, rfl⟩
    by_cases hr : r.state = .stopping
    · rw [if_pos hr]
      exact .hush e hr
    · rw [if_neg hr]
      exact .report e hr
  | reporting e =>
    unfold Reader.step at h
    dsimp only at h
    rcases hl : r.listener with _ | listener <;> rw [hl] at h
    all_goals obtain ⟨rfl, rfl⟩ := Prod.mk.inj (Option.some.inj h)
    · exact ⟨.unheardError e hl, rfl⟩
    · exact ⟨.fetchForError listener e hl, rfl⟩
  | telling listener e =>
    obtain ⟨rfl, rfl⟩ := Prod.mk.inj (Option.some.inj h)
    exact ⟨.tell listener e, rfl⟩
  | leaving =>
    obtain ⟨rfl, rfl⟩ := Prod.mk.inj (Option.some.inj h)
    exact ⟨.leave, rfl⟩

namespace Life

/-! ## What one act can do -/

section Point

variable (h : Life Listener) {n : Nat} {reader : Reader Listener} {q : Option (Point Listener)}

theorem point_isSome (ha : (h.point n).isSome) : n < h.threads.length := by
  unfold point at ha
  rcases Nat.lt_or_ge n h.threads.length with hn | hn
  · exact hn
  · rw [List.getElem?_eq_none hn] at ha
    cases ha

theorem point_set (ha : (h.point n).isSome) (m : Nat) :
    Life.point { reader, threads := h.threads.set n q } m = if m = n then q else h.point m := by
  have hn := h.point_isSome ha
  unfold point
  by_cases hm : m = n
  · subst hm
    rw [if_pos rfl, List.getElem?_set_self hn]
    rfl
  · rw [if_neg hm, List.getElem?_set_ne (Ne.symm hm)]

theorem point_begun (m : Nat) :
    Life.point { reader, threads := h.threads ++ [some .checking] } m =
      if m = h.threads.length then some .checking else h.point m := by
  unfold point
  by_cases hm : m = h.threads.length
  · subst hm
    rw [if_pos rfl, List.getElem?_concat_length]
    rfl
  · rw [if_neg hm]
    rcases Nat.lt_or_ge m h.threads.length with hlt | hge
    · rw [List.getElem?_append_left hlt]
    · rw [List.getElem?_eq_none hge, List.getElem?_eq_none]
      rw [List.length_append, List.length_singleton]
      omega

end Point

/-- What an act that leaves `h'` does to the reader and to the threads, and what is seen of it. -/
inductive Does (h h' : Life Listener) : Act Listener → List (Sight Listener) → Prop
  | started (made : Except String Unit) : h.reader.state = .stopped → h'.reader.state = .running →
      h'.reader.listener = h.reader.listener → h'.threads.length = h.threads.length + 1 →
      (∀ m, h'.point m = if m = h.threads.length then some .checking else h.point m) →
      Does h h' (.start made) []
  | stopped : h.reader.state = .running → h'.reader = { h.reader with state := .stopping } →
      h'.threads = h.threads → Does h h' .stop []
  | heard (listener : Option Listener) : h'.reader = { h.reader with listener } →
      h'.threads = h.threads → Does h h' (.setListener listener) []
  | walked {n : Nat} {answer : Nat → Option (Except PortError Bytes)} {p : Point Listener}
      {xs : List (Sight Listener)} {q : Option (Point Listener)} : h.point n = some p →
      Walk n h.reader p xs q →
      h'.reader = (if q = none then { h.reader with state := .stopped } else h.reader) →
      h'.threads.length = h.threads.length → (∀ m, h'.point m = if m = n then q else h.point m) →
      Does h h' (.step n answer) xs
  | crashed {n : Nat} : (h.point n).isSome → h'.reader = h.reader →
      h'.threads.length = h.threads.length →
      (∀ m, h'.point m = if m = n then some .leaving else h.point m) → Does h h' (.crash n) []
  | nothing {act : Act Listener} : h' = h → Does h h' act []

theorem start_of_busy {r : Reader Listener} (hr : r.state ≠ .stopped) (made : Except String Unit) :
    r.start made = (.error (.alreadyStarted r.state), r) := by
  unfold start
  rcases hs : r.state with _ | _ | _
  · exact absurd hs hr
  all_goals rfl

theorem does_of_perform (h : Life Listener) (act : Act Listener) :
    Does h (h.perform act).2 act (h.perform act).1 := by
  have nothing : h.perform act = ([], h) → Does h (h.perform act).2 act (h.perform act).1 := by
    intro he
    rw [he]
    exact .nothing rfl
  rcases act with made | _ | listener | ⟨n, answer⟩ | n
  · by_cases hs : h.reader.state = .stopped
    · rcases made with text | ⟨⟩
      · exact nothing (by simp [perform, start, hs])
      · have he : h.perform (.start (.ok ())) =
            ([], { reader := { h.reader with state := .running },
                   threads := h.threads ++ [some .checking] }) := by
          simp [perform, start, hs]
        rw [he]
        exact .started _ hs rfl rfl (by simp) h.point_begun
    · exact nothing (by rw [perform, start_of_busy hs])
  · by_cases hr : h.reader.state = .running
    · exact .stopped hr (if_pos hr) rfl
    · exact nothing (by rw [perform, stop, if_neg hr])
  · exact .heard listener rfl rfl
  · rcases hp : h.point n with _ | p
    · exact nothing (by simp only [perform, hp])
    · rcases hstep : h.reader.step answer p with _ | ⟨next, reader⟩
      · exact nothing (by simp only [perform, hp, hstep])
      · have he : h.perform (.step n answer) =
            (p.answered n (answer h.reader.size) ++ next.call n,
              { reader, threads := h.threads.set n next.point? }) := by
          simp only [perform, hp, hstep]
        obtain ⟨hwalk, hreader⟩ := walk_of_step n hstep
        rw [he]
        exact .walked hp hwalk hreader (List.length_set ..) (h.point_set (by rw [hp]; rfl))
  · rcases hp : h.point n with _ | p
    · exact nothing (by simp only [perform, hp])
    · have ha : (h.point n).isSome := by rw [hp]; rfl
      have he : h.perform (.crash n) =
          ([], { h with threads := h.threads.set n (some .leaving) }) := by
        simp only [perform, hp]
      rw [he]
      exact .crashed ha rfl (List.length_set ..) (h.point_set ha)

/-! ## One thread at a time -/

/-- Only the last thread may be alive, and the state says whether it is. -/
structure Sole (h : Life Listener) : Prop where
  last : ∀ n, (h.point n).isSome → n + 1 = h.threads.length
  at_rest : h.reader.state = .stopped ↔ ∀ n, h.point n = none

section Sole

variable {h h' : Life Listener} {act : Act Listener} {xs : List (Sight Listener)} {n m : Nat}

theorem Sole.busy (hs : Sole h) (ha : (h.point n).isSome) : h.reader.state ≠ .stopped := by
  intro he
  rw [hs.at_rest.mp he n] at ha
  cases ha

theorem Sole.alone (hs : Sole h) (hn : (h.point n).isSome) (hm : (h.point m).isSome) : m = n := by
  have := hs.last n hn
  have := hs.last m hm
  omega

/-- A thread that goes leaves none behind. -/
theorem Sole.gone (hs : Sole h) (hn : (h.point n).isSome)
    (hpoint : ∀ m, h'.point m = if m = n then none else h.point m) (m : Nat) :
    h'.point m = none := by
  rw [hpoint]
  by_cases hm : m = n
  · rw [if_pos hm]
  · rw [if_neg hm]
    rcases ha : h.point m with _ | p
    · rfl
    · exact absurd (hs.alone hn (by rw [ha]; rfl)) hm

/-- The thread goes on to another point, in the same state. -/
theorem Sole.goes_on (hs : Sole h) {p : Point Listener} (hn : (h.point n).isSome)
    (hpoint : ∀ m, h'.point m = if m = n then some p else h.point m)
    (hlen : h'.threads.length = h.threads.length) (hstate : h'.reader.state = h.reader.state) :
    Sole h' := by
  refine ⟨fun m hm => ?_, ?_⟩
  · rw [hlen]
    by_cases he : m = n
    · subst he
      exact hs.last m hn
    · rw [hpoint, if_neg he] at hm
      exact hs.last m hm
  · rw [hstate]
    constructor
    · intro he
      exact absurd he (hs.busy hn)
    · intro hnone
      have := hnone n
      rw [hpoint, if_pos rfl] at this
      cases this

/-- The points of the threads are as they were, and the reader as busy. -/
theorem Sole.same (hs : Sole h) (hthreads : h'.threads = h.threads)
    (hstate : h'.reader.state = .stopped ↔ h.reader.state = .stopped) : Sole h' := by
  have hpoint : ∀ m, h'.point m = h.point m := fun m => by unfold point; rw [hthreads]
  refine ⟨fun m hm => ?_, ?_⟩
  · rw [hthreads]
    exact hs.last m (hpoint m ▸ hm)
  · rw [hstate, hs.at_rest]
    exact forall_congr' fun m => by rw [hpoint]

theorem Does.sole (hd : Does h h' act xs) (hs : Sole h) : Sole h' := by
  cases hd with
  | started made hstate hstate' _ hlen hpoint =>
    refine ⟨fun m hm => ?_, ?_⟩
    · by_cases he : m = h.threads.length
      · omega
      · rw [hpoint, if_neg he, hs.at_rest.mp hstate] at hm
        cases hm
    · rw [hstate']
      refine ⟨nofun, fun hnone => ?_⟩
      have := hnone h.threads.length
      rw [hpoint, if_pos rfl] at this
      cases this
  | stopped hstate hreader hthreads =>
    refine hs.same hthreads ?_
    rw [hreader, hstate]
    exact ⟨nofun, nofun⟩
  | heard listener hreader hthreads =>
    refine hs.same hthreads ?_
    rw [hreader]
  | @walked n answer p xs q hp hwalk hreader hlen hpoint =>
    have ha : (h.point n).isSome := by rw [hp]; rfl
    rcases q with _ | q
    · have hgone := hs.gone ha hpoint
      refine ⟨fun m hm => ?_, ?_⟩
      · rw [hgone] at hm
        cases hm
      · rw [hreader]
        exact ⟨fun _ => hgone, fun _ => rfl⟩
    · exact hs.goes_on ha hpoint hlen (by rw [hreader]; rfl)
  | crashed ha hreader hlen hpoint => exact hs.goes_on ha hpoint hlen (by rw [hreader])
  | nothing he => rwa [he]

theorem sole_begin (size : Nat) (listener : Option Listener) : Sole (begin size listener) := by
  have hnone : ∀ n, (begin size listener).point n = none := fun n => rfl
  refine ⟨fun n hn => ?_, fun _ => hnone, fun _ => rfl⟩
  rw [hnone] at hn
  cases hn

theorem sole_after (hs : Sole h) (acts : List (Act Listener)) : Sole (h.after acts) := by
  induction acts generalizing h with
  | nil => exact hs
  | cons act acts ih => exact ih ((does_of_perform h act).sole hs)

end Sole

/-! ## One run -/

/-- What an act is to run `n`: a step of its thread, or nothing but its start or its end. -/
inductive Course (n : Nat) (h h' : Life Listener) (xs : List (Sight Listener)) : Prop
  | own {p : Point Listener} : h.point n = some p → Walk n h.reader p xs (h'.point n) →
      Course n h h' xs
  | aside : (∀ x ∈ xs, x.run ≠ n) → h'.point n = h.point n → Course n h h' xs
  | begun : xs = [] → n = h.threads.length → h'.point n = some .checking → Course n h h' xs
  | broken : xs = [] → (h.point n).isSome → h'.point n = some .leaving → Course n h h' xs

section Run

variable {h h' : Life Listener} {act : Act Listener} {xs : List (Sight Listener)} {n m : Nat}

theorem walk_run {r : Reader Listener} {p : Point Listener} {q : Option (Point Listener)}
    (hw : Walk n r p xs q) : ∀ x ∈ xs, x.run = n := by
  intro x hx
  cases hw <;> simp only [List.mem_singleton, List.not_mem_nil] at hx
  all_goals rw [hx, Sight.run]

theorem Does.course (hd : Does h h' act xs) (n : Nat) : Course n h h' xs := by
  cases hd with
  | started made hstate _ _ _ hpoint =>
    by_cases hn : n = h.threads.length
    · exact .begun rfl hn (by rw [hpoint, if_pos hn])
    · exact .aside nofun (by rw [hpoint, if_neg hn])
  | stopped _ _ hthreads => exact .aside nofun (by unfold point; rw [hthreads])
  | heard _ _ hthreads => exact .aside nofun (by unfold point; rw [hthreads])
  | @walked m answer p xs q hp hwalk _ _ hpoint =>
    by_cases hn : n = m
    · subst hn
      refine .own hp ?_
      rw [hpoint, if_pos rfl]
      exact hwalk
    · refine .aside (fun x hx => ?_) (by rw [hpoint, if_neg hn])
      rw [walk_run hwalk x hx]
      exact Ne.symm hn
  | @crashed m ha _ _ hpoint =>
    by_cases hn : n = m
    · subst hn
      exact .broken rfl ha (by rw [hpoint, if_pos rfl])
    · exact .aside nofun (by rw [hpoint, if_neg hn])
  | nothing he => exact .aside nofun (by rw [he])

/-- No thread is taken off the list. -/
theorem Does.length_le (hd : Does h h' act xs) : h.threads.length ≤ h'.threads.length := by
  cases hd with
  | started _ _ _ _ hlen => omega
  | stopped _ _ hthreads | heard _ _ hthreads => exact Nat.le_of_eq (by rw [hthreads])
  | walked _ _ _ hlen | crashed _ _ hlen => omega
  | nothing he => exact Nat.le_of_eq (by rw [he])

/-- A bound on what some acts show, from one that each act uses up. -/
theorem count_seen (inv : Life Listener → Prop) (counts : Sight Listener → Bool)
    (budget : Option (Point Listener) → Nat) (n : Nat)
    (hstep : ∀ h act, inv h → inv (h.perform act).2 ∧
      (h.perform act).1.countP counts + budget ((h.perform act).2.point n) ≤ budget (h.point n))
    (acts : List (Act Listener)) (hi : inv h) :
    (h.seen acts).countP counts ≤ budget (h.point n) := by
  induction acts generalizing h with
  | nil => exact Nat.zero_le _
  | cons act acts ih =>
    obtain ⟨hi', hle⟩ := hstep h act hi
    have := ih hi'
    rw [seen, List.countP_append]
    omega

/-- Run `n` shows nothing of some kind in an act of others. -/
theorem countP_aside (kind : Sight Listener → Bool) (hxs : ∀ x ∈ xs, x.run ≠ n) :
    xs.countP (fun x => kind x && x.run == n) = 0 := by
  rw [List.countP_eq_zero]
  intro x hx hk
  simp only [Bool.and_eq_true, beq_iff_eq] at hk
  exact hxs x hx hk.2

/-! ## The end of a run -/

/-- The run was started and its thread is on its way out, or gone. -/
def Over (n : Nat) (h : Life Listener) : Prop :=
  n < h.threads.length ∧ (h.point n = some .leaving ∨ h.point n = none)

theorem over_of_does (hd : Does h h' act xs) (ho : Over n h) :
    Over n h' ∧ xs.countP (fun x => x.isCall && x.run == n) = 0 := by
  obtain ⟨hlt, hpoint⟩ := ho
  have hlt' : n < h'.threads.length := Nat.lt_of_lt_of_le hlt hd.length_le
  cases hd.course n with
  | @own p hp hwalk =>
    rw [hp] at hpoint
    obtain rfl : p = .leaving := by simpa using hpoint
    generalize hq : h'.point n = q at hwalk
    cases hwalk
    exact ⟨⟨hlt', Or.inr hq⟩, rfl⟩
  | aside hxs hsame => exact ⟨⟨hlt', by rw [hsame]; exact hpoint⟩, countP_aside _ hxs⟩
  | begun _ hn => omega
  | broken hxs _ hq => exact ⟨⟨hlt', Or.inl hq⟩, by rw [hxs]; rfl⟩

theorem no_call_of_over (ho : Over n h) (acts : List (Act Listener)) :
    (h.seen acts).countP (fun x => x.isCall && x.run == n) = 0 := by
  refine Nat.le_zero.mp (count_seen (Over n) _ (fun _ => 0) n (fun h act ho => ?_) acts ho)
  obtain ⟨ho', hcount⟩ := over_of_does (does_of_perform h act) ho
  exact ⟨ho', Nat.le_of_eq hcount⟩

theorem over_of_run_error {listener : Listener} {e : PortError} (hd : Does h h' act xs)
    (hx : .runError n listener e ∈ xs) : Over n h' := by
  cases hd.course n with
  | @own p hp hwalk =>
    have hlt : n < h.threads.length := h.point_isSome (by rw [hp]; rfl)
    refine ⟨Nat.lt_of_lt_of_le hlt hd.length_le, Or.inl ?_⟩
    generalize h'.point n = q at hwalk
    cases hwalk with
    | tell => rfl
    | nothing | bytes | error | give =>
      rw [List.mem_singleton] at hx
      cases hx
    | _ => cases hx
  | aside hxs => exact absurd rfl (hxs _ hx)
  | begun hxs | broken hxs =>
    rw [hxs] at hx
    cases hx

/-! ## A stop -/

/-- The thread of the run may not go on: a stop was asked for, or it is gone. -/
def Asked (n : Nat) (h : Life Listener) : Prop :=
  Sole h ∧ n < h.threads.length ∧ ((h.point n).isSome → h.reader.state = .stopping)

theorem asked_of_does (hd : Does h h' act xs) (ha : Asked n h) : Asked n h' := by
  obtain ⟨hs, hlt, hstate⟩ := ha
  refine ⟨hd.sole hs, Nat.lt_of_lt_of_le hlt hd.length_le, fun halive => ?_⟩
  cases hd with
  | started made hrest _ _ _ hpoint =>
    rw [hpoint, if_neg (by omega), hs.at_rest.mp hrest] at halive
    cases halive
  | stopped hrun _ hthreads =>
    unfold point at halive
    rw [hthreads] at halive
    rw [hstate halive] at hrun
    cases hrun
  | heard _ hreader hthreads =>
    unfold point at halive
    rw [hthreads] at halive
    rw [hreader]
    exact hstate halive
  | @walked m answer p xs q hp _ hreader _ hpoint =>
    have hm : (h.point m).isSome := by rw [hp]; rfl
    rcases q with _ | q
    · rw [hs.gone hm hpoint] at halive
      cases halive
    · rw [hreader]
      refine hstate ?_
      by_cases hn : n = m
      · rwa [hn]
      · rwa [hpoint, if_neg hn] at halive
  | @crashed m hm hreader _ hpoint =>
    rw [hreader]
    refine hstate ?_
    by_cases hn : n = m
    · rwa [hn]
    · rwa [hpoint, if_neg hn] at halive
  | nothing he =>
    rw [he] at halive ⊢
    exact hstate halive

/-- Calls of `onNewData` that the thread may still come to, without another look at the state. -/
def toGive : Option (Point Listener) → Nat
  | some .reading | some (.received _) | some (.delivering ..) => 1
  | _ => 0

theorem give_of_asked (hd : Does h h' act xs) (ha : Asked n h) :
    xs.countP (fun x => x.isNewData && x.run == n) + toGive (h'.point n) ≤ toGive (h.point n) := by
  cases hd.course n with
  | @own p hp hwalk =>
    have hstate := ha.2.2 (by rw [hp]; rfl)
    rw [hp]
    generalize h'.point n = q at hwalk ⊢
    cases hwalk with
    | goOn hrun => rw [hstate] at hrun; cases hrun
    | give listener bytes => simp [Sight.isNewData, Sight.run, toGive]
    | _ => simp [Sight.isNewData, toGive]
  | aside hxs hsame => exact Nat.le_of_eq (by rw [countP_aside _ hxs, hsame, Nat.zero_add])
  | begun _ hn => exact absurd hn (Nat.ne_of_lt ha.2.1)
  | broken hxs _ hq => rw [hxs, hq]; exact Nat.zero_le _

/-- Behind a stop the thread hands over what it reads or has read, and no more. -/
theorem one_call_of_asked (ha : Asked n h) (acts : List (Act Listener)) :
    (h.seen acts).countP (fun x => x.isNewData && x.run == n) ≤ 1 := by
  have hle := count_seen (Asked n) _ toGive n (fun h act ha =>
    ⟨asked_of_does (does_of_perform h act) ha, give_of_asked (does_of_perform h act) ha⟩) acts ha
  refine Nat.le_trans hle ?_
  unfold toGive
  split <;> omega

/-- The error of the run was looked at already, and no read is to come. -/
def Looked : Option (Point Listener) → Prop
  | some (.reporting _) | some (.telling ..) | some .leaving | none => True
  | _ => False

/-- The thread is about to tell of an error. -/
def Reports : Option (Point Listener) → Prop
  | some (.reporting _) | some (.telling ..) => True
  | _ => False

theorem looked_of_reports {q : Option (Point Listener)} (hr : Reports q) : Looked q := by
  rcases q with _ | p
  · trivial
  · cases p <;> first
      | exact trivial
      | exact hr

theorem looked_of_does (hd : Does h h' act xs)
    (hl : n < h.threads.length ∧ Looked (h.point n)) :
    (n < h'.threads.length ∧ Looked (h'.point n)) ∧
      xs.countP (fun x => x.isFailure && x.run == n) = 0 := by
  obtain ⟨hlt, hlooked⟩ := hl
  have hlt' : n < h'.threads.length := Nat.lt_of_lt_of_le hlt hd.length_le
  cases hd.course n with
  | @own p hp hwalk =>
    rw [hp] at hlooked
    generalize h'.point n = q at hwalk ⊢
    cases hwalk <;> first
      | exact hlooked.elim
      | exact ⟨⟨hlt', trivial⟩, rfl⟩
  | aside hxs hsame => exact ⟨⟨hlt', by rw [hsame]; exact hlooked⟩, countP_aside _ hxs⟩
  | begun _ hn => omega
  | broken hxs _ hq => exact ⟨⟨hlt', by rw [hq]; trivial⟩, by rw [hxs]; rfl⟩

theorem quiet_of_does (hd : Does h h' act xs) (ha : Asked n h) (hr : ¬ Reports (h.point n)) :
    ¬ Reports (h'.point n) ∧ xs.countP (fun x => x.isRunError && x.run == n) = 0 := by
  cases hd.course n with
  | @own p hp hwalk =>
    have hstate := ha.2.2 (by rw [hp]; rfl)
    rw [hp] at hr
    generalize h'.point n = q at hwalk ⊢
    cases hwalk with
    | report e hne => exact absurd hstate hne
    | fetchForError | tell => exact absurd trivial hr
    | _ => exact ⟨id, rfl⟩
  | aside hxs hsame => exact ⟨by rwa [hsame], countP_aside _ hxs⟩
  | begun _ hn => exact absurd hn (Nat.ne_of_lt ha.2.1)
  | broken hxs _ hq => exact ⟨by rw [hq]; exact id, by rw [hxs]; rfl⟩

/-- Behind a stop an error that a read comes back with is not told of: either the thread told or was
about to tell of one before, and reads no more, or it finds the stop when it looks. -/
theorem quiet_of_asked (ha : Asked n h) (acts : List (Act Listener)) :
    (h.seen acts).countP (fun x => x.isFailure && x.run == n) = 0 ∨
      (h.seen acts).countP (fun x => x.isRunError && x.run == n) = 0 := by
  by_cases hr : Reports (h.point n)
  · have hl : Looked (h.point n) := looked_of_reports hr
    refine Or.inl (Nat.le_zero.mp (count_seen (fun h => n < h.threads.length ∧ Looked (h.point n)) _
      (fun _ => 0) n (fun h act hl => ?_) acts ⟨ha.2.1, hl⟩))
    obtain ⟨hl', hcount⟩ := looked_of_does (does_of_perform h act) hl
    exact ⟨hl', Nat.le_of_eq hcount⟩
  · refine Or.inr (Nat.le_zero.mp (count_seen (fun h => Asked n h ∧ ¬ Reports (h.point n)) _
      (fun _ => 0) n (fun h act hq => ?_) acts ⟨ha, hr⟩))
    obtain ⟨hr', hcount⟩ := quiet_of_does (does_of_perform h act) hq.1 hq.2
    exact ⟨⟨asked_of_does (does_of_perform h act) hq.1, hr'⟩, Nat.le_of_eq hcount⟩

/-! ## A listener taken away -/

/-- The call that the thread is about to make to the listener it fetched. -/
def fetched (n : Nat) : Option (Point Listener) → List (Sight Listener)
  | some (.delivering listener bytes) => [.newData n listener bytes]
  | some (.telling listener e) => [.runError n listener e]
  | _ => []

theorem call_of_no_listener (hd : Does h h' act xs) (hl : h.reader.listener = none) (n : Nat) :
    (xs.filter (fun x => x.isCall && x.run == n) ++ fetched n (h'.point n)).Sublist
      (fetched n (h.point n)) := by
  cases hd.course n with
  | @own p hp hwalk =>
    rw [hp]
    generalize h'.point n = q at hwalk ⊢
    cases hwalk with
    | fetch listener _ hsome | fetchForError listener _ hsome =>
      rw [hl] at hsome
      cases hsome
    | give | tell => simp [Sight.isCall, Sight.isNewData, Sight.isRunError, Sight.run, fetched]
    | _ => exact List.nil_sublist _
  | aside hxs hsame =>
    have hnone : xs.filter (fun x => x.isCall && x.run == n) = [] := by
      rw [List.filter_eq_nil_iff]
      intro x hx hk
      simp only [Bool.and_eq_true, beq_iff_eq] at hk
      exact hxs x hx hk.2
    rw [hnone, hsame]
    exact List.Sublist.refl _
  | begun hxs _ hq | broken hxs _ hq =>
    rw [hxs, hq]
    exact List.nil_sublist _

theorem no_listener_of_does (hd : Does h h' act xs) (hl : h.reader.listener = none)
    (hact : ∀ listener, act ≠ .setListener (some listener)) : h'.reader.listener = none := by
  cases hd with
  | started _ _ _ hlisten => rw [hlisten, hl]
  | stopped _ hreader => rw [hreader]; exact hl
  | heard listener hreader =>
    rw [hreader]
    rcases listener with _ | listener
    · rfl
    · exact absurd rfl (hact listener)
  | @walked _ _ _ _ q _ _ hreader =>
    rw [hreader]
    split
    · exact hl
    · exact hl
  | crashed _ hreader => rw [hreader]; exact hl
  | nothing he => rw [he]; exact hl

/-- Without a listener the thread of a run makes the call at most that it had fetched the listener
for. -/
theorem calls_of_no_listener (hl : h.reader.listener = none) {acts : List (Act Listener)}
    (hacts : ∀ listener, .setListener (some listener) ∉ acts) (n : Nat) :
    ((h.seen acts).filter (fun x => x.isCall && x.run == n)).Sublist (fetched n (h.point n)) := by
  induction acts generalizing h with
  | nil => exact List.nil_sublist _
  | cons act acts ih =>
    have hd := does_of_perform h act
    have hl' := no_listener_of_does hd hl fun listener he =>
      hacts listener (by rw [he]; exact List.mem_cons_self ..)
    have hrest := ih hl' fun listener hmem => hacts listener (List.mem_cons_of_mem _ hmem)
    rw [seen, List.filter_append]
    exact (hrest.append_left _).trans (call_of_no_listener hd hl n)

end Run

/-! ## The law -/

/-- What holds of a reader and its threads, and of whatever happens from here on. -/
structure Lifecycle (h : Life Listener) : Prop where
  alone : ∀ n m, (h.point n).isSome → (h.point m).isSome → n = m
  at_rest : h.reader.state = .stopped ↔ ∀ n, h.point n = none
  starts : ∀ made, (h.reader.start made).1 = .ok () ↔ h.reader.state = .stopped ∧ made = .ok ()
  /-- A start under way refuses another, and nothing changes. -/
  refuses : h.reader.state ≠ .stopped → ∀ made,
    (h.reader.start made).1 = .error (.alreadyStarted h.reader.state) ∧
      (h.perform (.start made)).2 = h
  changes : ∀ act, (h.perform act).2.reader.state = h.reader.state ∨
    (∃ made, act = .start made) ∧ h.reader.state = .stopped ∧
      (h.perform act).2.reader.state = .running ∨
    act = .stop ∧ h.reader.state = .running ∧ (h.perform act).2.reader.state = .stopping ∨
    (∃ n answer, act = .step n answer ∧ h.point n = some .leaving ∧
      (h.perform act).2.point n = none) ∧
      h.reader.state ≠ .stopped ∧ (h.perform act).2.reader.state = .stopped
  /-- However a thread comes to its end, it goes this one way, and leaves the reader stopped. -/
  leaves : ∀ act n, (h.point n).isSome → (h.perform act).2.point n = none →
    h.point n = some .leaving ∧ (h.perform act).2.reader.state = .stopped
  /-- A stop of a running thread leaves it one more slice to hand over at most, and no error to tell
  of that a read comes back with from here on. -/
  stops : h.reader.state = .running → ∃ n, (h.point n).isSome ∧ ∀ acts,
    ((h.perform .stop).2.seen acts).countP (fun x => x.isNewData && x.run == n) ≤ 1 ∧
      ((∃ e, .returned n (.error e) ∈ (h.perform .stop).2.seen acts) →
        ∀ listener e, .runError n listener e ∉ (h.perform .stop).2.seen acts)
  /-- The error that a run tells of is the last that it calls the listener for. -/
  once : ∀ act n listener e, .runError n listener e ∈ (h.perform act).1 →
    ∀ acts, ∀ x ∈ (h.perform act).2.seen acts, x.run = n → x.isCall = false
  /-- From a listener taken away until another is set, a run makes the call at most that it had
  fetched the listener for. -/
  cleared : ∀ acts, (∀ listener, .setListener (some listener) ∉ acts) → ∀ n,
    (((h.perform (.setListener none)).2.seen acts).filter
      (fun x => x.isCall && x.run == n)).Sublist (fetched n (h.point n))

section Law

variable {h h' : Life Listener} {act : Act Listener} {xs : List (Sight Listener)}

/-- A thread goes by its last step only. -/
theorem Does.leaves (hd : Does h h' act xs) (hs : Sole h) {n : Nat} (ha : (h.point n).isSome)
    (hgone : h'.point n = none) : h.point n = some .leaving ∧ h'.reader.state = .stopped := by
  have hchanged : h'.point n ≠ h.point n := by
    intro he
    rw [← he, hgone] at ha
    cases ha
  cases hd with
  | started _ hrest => exact absurd hrest (hs.busy ha)
  | stopped _ _ hthreads | heard _ _ hthreads =>
    exact absurd (by unfold point; rw [hthreads]) hchanged
  | @walked m _ p _ q hp hwalk hreader _ hpoint =>
    by_cases hn : n = m
    · subst hn
      rw [hpoint, if_pos rfl] at hgone
      subst hgone
      cases hwalk
      exact ⟨hp, by rw [hreader]; rfl⟩
    · exact absurd (by rw [hpoint, if_neg hn]) hchanged
  | @crashed m _ _ _ hpoint =>
    by_cases hn : n = m
    · rw [hpoint, if_pos hn] at hgone
      cases hgone
    · exact absurd (by rw [hpoint, if_neg hn]) hchanged
  | nothing he => exact absurd (by rw [he]) hchanged

theorem Does.changes (hd : Does h h' act xs) (hs : Sole h) :
    h'.reader.state = h.reader.state ∨
    (∃ made, act = .start made) ∧ h.reader.state = .stopped ∧ h'.reader.state = .running ∨
    act = .stop ∧ h.reader.state = .running ∧ h'.reader.state = .stopping ∨
    (∃ n answer, act = .step n answer ∧ h.point n = some .leaving ∧ h'.point n = none) ∧
      h.reader.state ≠ .stopped ∧ h'.reader.state = .stopped := by
  cases hd with
  | started made hrest hrun => exact Or.inr (Or.inl ⟨⟨made, rfl⟩, hrest, hrun⟩)
  | stopped hrun hreader => exact Or.inr (Or.inr (Or.inl ⟨rfl, hrun, by rw [hreader]⟩))
  | heard _ hreader => exact Or.inl (by rw [hreader])
  | @walked n answer p _ q hp hwalk hreader _ hpoint =>
    rcases q with _ | q
    · cases hwalk
      have hgone : h'.point n = none := by rw [hpoint, if_pos rfl]
      exact Or.inr (Or.inr (Or.inr ⟨⟨n, answer, rfl, hp, hgone⟩, hs.busy (by rw [hp]; rfl),
        by rw [hreader]; rfl⟩))
    · exact Or.inl (by rw [hreader]; rfl)
  | crashed _ hreader => exact Or.inl (by rw [hreader])
  | nothing he => exact Or.inl (by rw [he])

theorem start_ok_iff (r : Reader Listener) (made : Except String Unit) :
    (r.start made).1 = .ok () ↔ r.state = .stopped ∧ made = .ok () := by
  by_cases hr : r.state = .stopped
  · rcases made with text | ⟨⟩
    · simp [start, hr]
    · simp [start, hr]
  · simp [start_of_busy hr, hr]

/-- A reader that is running has a thread, and a stop is asked of it. -/
theorem Sole.asked (hs : Sole h) (hrun : h.reader.state = .running) :
    ∃ n, (h.point n).isSome ∧ Asked n (h.perform .stop).2 := by
  have hbusy : ¬ ∀ n, h.point n = none := by
    rw [← hs.at_rest, hrun]
    nofun
  obtain ⟨n, hn⟩ := Classical.not_forall.mp hbusy
  have ha : (h.point n).isSome := Option.isSome_iff_ne_none.mpr hn
  refine ⟨n, ha, (does_of_perform h .stop).sole hs, h.point_isSome ha, fun _ => ?_⟩
  exact congrArg state (if_pos hrun)

theorem not_mem_of_countP {kind : Sight Listener → Bool} {n : Nat}
    (h : xs.countP (fun x => kind x && x.run == n) = 0) {x : Sight Listener} (hx : x ∈ xs)
    (hn : x.run = n) : kind x = false := by
  have := List.countP_eq_zero.mp h x hx
  simpa [hn] using this

theorem lifecycle_of_sole (hs : Sole h) : Lifecycle h := by
  refine ⟨fun n m hn hm => hs.alone hm hn, hs.at_rest, start_ok_iff h.reader,
    fun hbusy made => ?_, fun act => (does_of_perform h act).changes hs,
    fun act n => (does_of_perform h act).leaves hs, fun hrun => ?_,
    fun act n listener e hx acts x hmem => ?_, fun acts hacts n => ?_⟩
  · rw [perform, start_of_busy hbusy]
    exact ⟨rfl, rfl⟩
  · obtain ⟨n, ha, hasked⟩ := hs.asked hrun
    refine ⟨n, ha, fun acts => ⟨one_call_of_asked hasked acts, ?_⟩⟩
    rintro ⟨e, he⟩ listener e' he'
    rcases quiet_of_asked hasked acts with hq | hq
    · cases not_mem_of_countP hq he rfl
    · cases not_mem_of_countP hq he' rfl
  · have hover := over_of_run_error (does_of_perform h act) hx
    exact not_mem_of_countP (no_call_of_over hover acts) hmem
  · exact calls_of_no_listener rfl hacts n

/-- Whatever was done to a reader and its threads, the law holds of them. -/
theorem a_reader_keeps_to_its_lifecycle (size : Nat) (listener : Option Listener)
    (acts : List (Act Listener)) : Lifecycle ((begin size listener).after acts) :=
  lifecycle_of_sole (sole_after (sole_begin size listener) acts)

end Law

end Life

end SerialLink.Reader
