-- Which attempt a byte belongs to. A chunk is let in only for the attempt that
-- feeds the ring, and a reader made for that attempt read it. Behind that
-- check nobody asks again: a chunk that is on its way when the next attempt
-- empties the ring and takes the marker comes to the consumer and to the
-- checker of that attempt, and no other byte does.
import SerialLink.Proofs.Connection.Conservation

namespace SerialLink.Connection

/-! ## Where a chunk was read -/

/-- A read of this reader brought these bytes. -/
def Brought (es : List Entry) (number : Nat) (bytes : Bytes) : Prop :=
  ∃ e ∈ es, ∃ a, e.task = .read number .reading ∧ e.before.readers[number]? = some a ∧
    e.move.outside.read a.port a.reader.size = some (.ok bytes)

/-- This reader was made for attempt `n`. -/
def MadeFor (es : List Entry) (number n : Nat) : Prop :=
  ∃ e ∈ es, ∃ port, e.task = .recordReader n port ∧ e.before.readers.length = number

/-- A reader of attempt `n` read these bytes. -/
def ReadFor (es : List Entry) (n : Nat) (bytes : Bytes) : Prop :=
  ∃ number, MadeFor es number n ∧ Brought es number bytes

/-- This reader hands what it reads to attempt `n`. -/
def Listens (c : Connection) (number n : Nat) : Prop :=
  ∃ a, c.readers[number]? = some a ∧ a.reader.listener = some n

/-- What is known of a chunk that a pending task has not handed over yet. -/
def Traceable (es : List Entry) : Task → Prop
  | .read number (.received bytes) => Brought es number bytes
  | .read number (.delivering n bytes) => MadeFor es number n ∧ Brought es number bytes
  | .accept n bytes => ReadFor es n bytes
  | _ => True

section Readers

variable {es : List Entry} {c : Connection} {x : Outside} {task t : Task} {o : Outcome}
  {move : Move} {number n : Nat} {bytes : Bytes}

theorem Brought.mono (h : Brought es number bytes) (fs : List Entry) :
    Brought (es ++ fs) number bytes := by
  obtain ⟨e, he, hread⟩ := h
  exact ⟨e, List.mem_append_left _ he, hread⟩

theorem MadeFor.mono (h : MadeFor es number n) (fs : List Entry) :
    MadeFor (es ++ fs) number n := by
  obtain ⟨e, he, hmade⟩ := h
  exact ⟨e, List.mem_append_left _ he, hmade⟩

theorem ReadFor.mono (h : ReadFor es n bytes) (fs : List Entry) : ReadFor (es ++ fs) n bytes := by
  obtain ⟨number, hmade, hread⟩ := h
  exact ⟨number, hmade.mono fs, hread.mono fs⟩

theorem Traceable.mono (h : Traceable es t) (fs : List Entry) : Traceable (es ++ fs) t := by
  unfold Traceable at h ⊢
  split at h
  · exact h.mono fs
  · exact ⟨h.1.mono fs, h.2.mono fs⟩
  · exact ReadFor.mono h fs
  · trivial

theorem listener_of_step {r r' : Reader Nat} {answer : Nat → Option (Except PortError Bytes)}
    {point : Reader.Point Nat} {next : Reader.Next Nat}
    (h : r.step answer point = some (next, r')) : r'.listener = r.listener := by
  unfold Reader.step at h
  cases point <;> simp only [Option.some.injEq, Prod.mk.injEq] at h
  case reading => split at h <;> simp_all
  case received => split at h <;> simp_all
  case reporting => split at h <;> simp_all
  case leaving => rw [← h.2]
  all_goals rw [h.2]

theorem listener_of_start {r : Reader Nat} (made : Except String Unit) :
    (r.start made).2.listener = r.listener := by
  unfold Reader.start
  split <;> rfl

/-- A change of a reader that sets no listener lets none listen that did not. -/
theorem listens_of_modify {k : Nat} {f : Reader Nat → Reader Nat}
    (hf : ∀ a, c.readers[k]? = some a →
      (f a.reader).listener = a.reader.listener ∨ (f a.reader).listener = none)
    (h : Listens (c.modifyReader k f) number n) : Listens c number n := by
  obtain ⟨a, ha, hl⟩ := h
  unfold modifyReader at ha
  rw [List.getElem?_modify] at ha
  obtain ⟨b, hb, rfl⟩ := Option.map_eq_some_iff.mp ha
  by_cases hk : k = number
  · subst hk
    simp only [if_true] at hl
    rcases hf b hb with he | he
    · exact ⟨b, hb, he.symm.trans hl⟩
    · rw [he] at hl
      cases hl
  · simp only [hk, if_false] at hl
    exact ⟨b, hb, hl⟩

theorem listens_of_recordReader {m port : Nat}
    (hl : Listens (c.stepRecordReader x m port).connection number n) :
    Listens c number n ∨ m = n ∧ c.readers.length = number := by
  have hmade : ∃ r : Reader Nat, r.listener = some m ∧
      (c.stepRecordReader x m port).connection.readers = c.readers ++ [{ port, reader := r }] := by
    unfold stepRecordReader
    dsimp only
    split <;> exact ⟨_, rfl, rfl⟩
  obtain ⟨r, hm, hreaders⟩ := hmade
  obtain ⟨a, ha, hn⟩ := hl
  rw [hreaders] at ha
  by_cases hlt : number < c.readers.length
  · rw [List.getElem?_append_left hlt] at ha
    exact Or.inl ⟨a, ha, hn⟩
  · have hle : c.readers.length ≤ number := Nat.le_of_not_lt hlt
    rw [List.getElem?_append_right hle] at ha
    rw [List.getElem?_singleton] at ha
    split at ha
    · rw [← Option.some.inj ha, hm, Option.some.injEq] at hn
      exact Or.inr ⟨hn, by omega⟩
    · cases ha

theorem listens_of_startReader {m k : Nat}
    (hl : Listens (c.stepStartReader x m k).connection number n) : Listens c number n := by
  unfold stepStartReader at hl
  split at hl
  · exact hl
  · rename_i a ha
    split at hl
    · exact hl
    · rename_i reader hstart
      refine listens_of_modify (fun b hb => Or.inl ?_) hl
      have hsame := listener_of_start (r := a.reader) x.thread
      rw [hstart] at hsame
      rw [ha, Option.some.injEq] at hb
      rw [← hb]
      exact hsame

theorem listens_of_read {k : Nat} {point : Reader.Point Nat} (h : c.stepRead x k point = some o)
    (hl : Listens o.connection number n) : Listens c number n := by
  obtain ⟨a, next, reader, ha, hs, rfl⟩ := stepRead_eq h
  refine listens_of_modify (fun b hb => Or.inl ?_) hl
  rw [ha, Option.some.injEq] at hb
  rw [← hb, listener_of_step hs]

/-- A reader listens from when it was made, for the attempt that it was made for. -/
theorem listens_of_exec (h : c.exec x task = some o) (hl : Listens o.connection number n) :
    Listens c number n ∨ ∃ port, task = .recordReader n port ∧ c.readers.length = number := by
  by_cases hr : task.isOfReader = true
  · cases task <;> simp only [Task.isOfReader, Bool.false_eq_true] at hr <;>
      simp only [exec, Option.some.injEq] at h
    case recordReader m port =>
      subst h
      rcases listens_of_recordReader hl with hl | ⟨rfl, hlength⟩
      · exact Or.inl hl
      · exact Or.inr ⟨port, rfl, hlength⟩
    case startReader =>
      subst h
      exact Or.inl (listens_of_startReader hl)
    case read => exact Or.inl (listens_of_read h hl)
    case clearListener =>
      subst h
      exact Or.inl (listens_of_modify (fun _ _ => Or.inr rfl) hl)
    case stopReader =>
      subst h
      refine Or.inl (listens_of_modify (fun a _ => Or.inl ?_) hl)
      unfold Reader.stop
      split <;> rfl
  · obtain ⟨a, ha, hn⟩ := hl
    rw [(untouched_of_exec h).readers (eq_false_of_ne_true hr)] at ha
    exact Or.inl ⟨a, ha, hn⟩

/-- A read thread that stands here has no bytes. -/
def hasNone : Reader.Point Nat → Bool
  | .received _ | .delivering .. => false
  | _ => true

/-- What a read thread comes to: bytes that a read brought, the listener for them, the listener's
call, or nothing that has bytes. -/
inductive Hands (r : Reader Nat) (answer : Nat → Option (Except PortError Bytes)) :
    Reader.Point Nat → Reader.Next Nat → Prop
  | brought {bytes : Bytes} (h : answer r.size = some (.ok bytes)) :
    Hands r answer .reading (.goto (.received bytes))
  | fetched {n : Nat} {bytes : Bytes} (h : r.listener = some n) :
    Hands r answer (.received bytes) (.goto (.delivering n bytes))
  | handed {n : Nat} {bytes : Bytes} :
    Hands r answer (.delivering n bytes) (.newData n bytes .checking)
  | told {n : Nat} {e : PortError} : Hands r answer (.telling n e) (.runError n e .leaving)
  | gone {point : Reader.Point Nat} : Hands r answer point .done
  | none {point next : Reader.Point Nat} (h : hasNone next) : Hands r answer point (.goto next)

theorem hands_of_step {r r' : Reader Nat} {answer : Nat → Option (Except PortError Bytes)}
    {point : Reader.Point Nat} {next : Reader.Next Nat}
    (h : r.step answer point = some (next, r')) : Hands r answer point next := by
  unfold Reader.step at h
  cases point with
  | checking =>
    cases h
    exact .none (by split <;> rfl)
  | reading =>
    dsimp only at h
    split at h
    · cases h
    · cases h
      exact .none rfl
    · cases h
      exact .brought ‹_›
    · cases h
      exact .none rfl
  | received bytes =>
    dsimp only at h
    split at h <;> cases h
    · exact .fetched ‹_›
    · exact .none rfl
  | delivering n bytes =>
    cases h
    exact .handed
  | failed e =>
    cases h
    exact .none (by split <;> rfl)
  | reporting e =>
    dsimp only at h
    split at h <;> cases h <;> exact .none rfl
  | telling n e =>
    cases h
    exact .told
  | leaving =>
    cases h
    exact .gone

theorem traceable_of_none {point : Reader.Point Nat} (h : hasNone point) :
    Traceable es (.read number point) := by
  cases point <;> trivial

/-- A read thread hands on what its reads brought, for the attempt that listens. -/
theorem traceable_of_read {point : Reader.Point Nat}
    (h : c.stepRead move.outside number point = some o) (ht : Traceable es (.read number point))
    (hl : ∀ n, Listens c number n → MadeFor es number n) :
    ∀ t ∈ o.next, Traceable (es ++ [⟨move, c, .read number point, o.effects, o.connection⟩]) t := by
  have ht := ht.mono [⟨move, c, .read number point, o.effects, o.connection⟩]
  obtain ⟨a, next, reader, ha, hs, rfl⟩ := stepRead_eq h
  cases hands_of_step hs with
  | brought hread =>
    refine List.forall_mem_singleton.mpr ?_
    exact ⟨_, List.mem_append_right _ (List.mem_singleton_self _), a, rfl, ha, hread⟩
  | fetched hn =>
    refine List.forall_mem_singleton.mpr ?_
    exact ⟨(hl _ ⟨a, ha, hn⟩).mono _, ht⟩
  | handed => exact List.forall_mem_cons.mpr ⟨⟨number, ht⟩, List.forall_mem_singleton.mpr trivial⟩
  | told =>
    refine List.forall_mem_append.mpr ⟨?_, List.forall_mem_singleton.mpr trivial⟩
    by_cases hd : c.dropped = true
    · simp [hd]
    · rw [if_neg hd]
      exact List.forall_mem_singleton.mpr trivial
  | gone => exact nofun
  | none hnext => exact List.forall_mem_singleton.mpr (traceable_of_none hnext)

theorem traceable_of_exec (h : c.exec move.outside task = some o) (ht : Traceable es task)
    (hl : ∀ number n, Listens c number n → MadeFor es number n) :
    ∀ t ∈ (o.next : Multiset Task) + (o.started.flatten : Multiset Task),
      Traceable (es ++ [⟨move, c, task, o.effects, o.connection⟩]) t := by
  refine leaves_of_exec h ?_ (fun _ => trivial) (fun _ => trivial) ?_ ?_
  · intro t hw
    cases t <;> trivial
  · rintro number point rfl hr
    exact traceable_of_read hr ht (hl number)
  · intro t hp
    cases hp <;> trivial

/-- A chunk is let in where it is handed to the attempt that feeds the ring. -/
theorem task_of_letIn {e : Entry} (h : bytes ∈ e.letIn) :
    e.task = .accept e.before.feeding bytes := by
  obtain ⟨p, hp, hbytes⟩ := List.mem_filterMap.mp h
  have hreceived : p = .received bytes := by
    cases p <;> simp only [Passage.letIn, reduceCtorEq] at hbytes
    exact congrArg _ (Option.some.inj hbytes)
  subst hreceived
  rcases List.mem_append.mp hp with hp | hp
  · unfold Task.passages at hp
    split at hp <;> try split at hp
    case h_1.isTrue htask hfeeds =>
      cases List.mem_singleton.mp hp
      rw [htask, hfeeds.2]
    all_goals simp at hp
  · obtain ⟨f, _, hf⟩ := List.mem_filterMap.mp hp
    cases f <;> cases hf

end Readers

section Moves

variable (device : DeviceInfo) (config : ConnectionConfig) (prober : Prober) (moves : List Move)

theorem traceable_of_moves :
    let h := History.of (.new device config prober) moves
    (∀ number n, Listens h.machine.connection number n → MadeFor h.entries number n) ∧
      ∀ t ∈ h.machine.pending, Traceable h.entries t := by
  refine History.moves_induction
    (I := fun h =>
      (∀ number n, Listens h.machine.connection number n → MadeFor h.entries number n) ∧
        ∀ t ∈ h.machine.pending, Traceable h.entries t) ⟨?_, ?_⟩ ?_ moves
  · rintro number n ⟨a, ha, _⟩
    cases ha
  · exact fun t ht => (Multiset.notMem_zero t ht).elim
  · rintro moves move e m' ⟨hlisten, htrace⟩ hm
    obtain ⟨ho, rfl, hc, hp, hsource⟩ := makes_of_move hm
    rename_i task others o
    have hbegun : ∀ t ∈ task ::ₘ others,
        Traceable (History.of (.new device config prober) moves).entries t := by
      rcases hsource with hpending | ⟨hpending, hb⟩
      · rw [← hpending]
        exact htrace
      · intro t ht
        rcases Multiset.mem_cons.mp ht with rfl | ht
        · cases hb <;> trivial
        · exact htrace t (hpending ▸ ht)
    refine ⟨?_, ?_⟩
    · intro number n hl
      rw [hc] at hl
      rcases listens_of_exec ho hl with hl | ⟨port, rfl, hlength⟩
      · exact (hlisten number n hl).mono _
      · exact ⟨_, List.mem_append_right _ (List.mem_singleton_self _), port, rfl, hlength⟩
    · intro t ht
      rw [hp] at ht
      rcases Multiset.mem_add.mp ht with ht | ht
      · exact traceable_of_exec ho (hbegun task (Multiset.mem_cons_self ..)) hlisten t ht
      · exact (hbegun t (Multiset.mem_cons_of_mem ht)).mono _

/-- A chunk that is let in was read before by a reader of the attempt that feeds the ring. -/
theorem read_for_of_moves {before after : List Entry} {e : Entry} {chunk : Bytes}
    (he : (History.of (.new device config prober) moves).entries = before ++ e :: after)
    (hchunk : chunk ∈ e.letIn) : ReadFor before e.before.feeding chunk := by
  revert before e after
  refine History.moves_induction (I := fun h => ∀ {before after : List Entry} {e : Entry},
    h.entries = before ++ e :: after → chunk ∈ e.letIn → ReadFor before e.before.feeding chunk)
    ?_ ?_ moves
  · intro before after e he
    simp at he
  · intro moves move last m' ih hm before after e he hchunk
    rcases List.eq_nil_or_concat after with rfl | ⟨front, f, rfl⟩
    · obtain ⟨hbefore, hlast⟩ := List.append_inj' he rfl
      obtain ⟨rfl, _⟩ := List.cons.inj hlast
      subst hbefore
      obtain ⟨_, rfl, _, _, hsource⟩ := makes_of_move hm
      have htask := task_of_letIn hchunk
      dsimp only at htask
      subst htask
      rcases hsource with hpending | ⟨_, hb⟩
      · exact (traceable_of_moves device config prober moves).2 (.accept _ chunk)
          (hpending ▸ Multiset.mem_cons_self ..)
      · cases hb
    · have hsplit : (History.of (.new device config prober) moves).entries ++ [last] =
          (before ++ e :: front) ++ [f] := by
        dsimp only at he
        rw [he, List.concat_eq_append, List.append_assoc, List.cons_append]
      exact ih (List.append_inj' hsplit rfl).1 hchunk

end Moves

/-! ## What the checker is shown -/

/-- The chunk that a task shows to the checker. -/
def Task.shows : Task → Option Bytes
  | .check bytes => some bytes
  | _ => none

/-- The chunks that the checker was shown, in order. -/
def chunksShown (es : List Entry) : List Bytes := es.filterMap fun e => e.task.shows

/-- The chunks that pending tasks will show to the checker. -/
def toShow (P : Multiset Task) : Multiset Bytes := P.filterMap Task.shows

/-- The checker behind these chunks. -/
def checkAll (chunks : List Bytes) (checker : Stream.Checker) : Stream.Checker :=
  chunks.foldl (fun k chunk => (k.check chunk).2) checker

section Shown

variable {c : Connection} {x : Outside} {task : Task} {o : Outcome} {move : Move}
  {others : Multiset Task}

theorem shows_of_empty {t : Task} (h : t.isLoaded = false) : t.shows = none := by
  cases t <;> first | rfl | cases h

theorem toShow_cons (t : Task) (P : Multiset Task) :
    toShow (t ::ₘ P) = (t.shows.toList : Multiset Bytes) + toShow P := by
  unfold toShow
  rcases h : t.shows with _ | bytes
  · rw [Multiset.filterMap_cons_none _ _ h]
    exact (zero_add _).symm
  · rw [Multiset.filterMap_cons_some _ _ _ h]
    rfl

theorem toShow_add (P Q : Multiset Task) : toShow (P + Q) = toShow P + toShow Q := by
  induction P using Multiset.induction_on with
  | empty =>
    rw [zero_add]
    exact (zero_add (toShow Q)).symm
  | cons t P ih => rw [Multiset.cons_add, toShow_cons, toShow_cons, ih, add_assoc]

theorem chunksShown_append (es fs : List Entry) :
    chunksShown (es ++ fs) = chunksShown es ++ chunksShown fs :=
  List.filterMap_append ..

theorem chunksShown_singleton (e : Entry) : chunksShown [e] = e.task.shows.toList := by
  unfold chunksShown
  rcases h : e.task.shows with _ | bytes <;> simp [h]

/-- Of what a step leaves, the chunk that it lets in is shown to the checker. -/
theorem toShow_of_exec (move : Move) (h : c.exec x task = some o) :
    toShow ((o.next : Multiset Task) + (o.started.flatten : Multiset Task)) =
      ((⟨move, c, task, o.effects, o.connection⟩ : Entry).letIn : Multiset Bytes) := by
  by_cases ha : ∃ n bytes, task = .accept n bytes
  · obtain ⟨n, bytes, rfl⟩ := ha
    simp only [exec, Option.some.injEq] at h
    subst h
    have hp : (⟨move, c, .accept n bytes, (c.stepAccept n bytes).effects,
        (c.stepAccept n bytes).connection⟩ : Entry).passages = _ := passages_accept c n bytes
    unfold Entry.letIn
    rw [hp]
    by_cases hf : !c.dropped ∧ c.feeding = n
    · simp only [stepAccept, if_pos hf]
      simp [toShow, Task.shows, Passage.letIn, List.filterMap_cons]
    · simp only [stepAccept, if_neg hf]
      simp [toShow]
  · have hnone : ∀ t ∈ (o.next : Multiset Task) + (o.started.flatten : Multiset Task),
        t.shows = none := by
      refine leaves_of_exec h ?_ (fun _ => rfl) (fun _ => rfl) ?_ ?_
      · intro t hw
        cases t <;> first | rfl | cases hw
      · intro number point _ hr t ht
        exact shows_of_empty (not_loaded_of_read hr t ht)
      · intro t hp
        cases hp with
        | check => exact absurd ⟨_, _, rfl⟩ ha
        | _ => rfl
    have hletIn : (⟨move, c, task, o.effects, o.connection⟩ : Entry).letIn = [] := by
      refine List.eq_nil_iff_forall_not_mem.mpr fun bytes hbytes => ?_
      exact ha ⟨_, bytes, task_of_letIn hbytes⟩
    rw [hletIn]
    unfold toShow
    refine Multiset.eq_zero_iff_forall_notMem.mpr fun bytes hbytes => ?_
    obtain ⟨t, ht, hs⟩ := (Multiset.mem_filterMap _ _).mp hbytes
    rw [hnone t ht] at hs
    cases hs

/-- The checker changes only with the chunks that it is shown. -/
theorem checker_of_exec (h : c.exec x task = some o) (hr : task ≠ .resetChecker) :
    o.connection.checker = c.checker.map (checkAll task.shows.toList) := by
  by_cases hc : ∃ bytes, task = .check bytes
  · obtain ⟨bytes, rfl⟩ := hc
    simp only [exec, Option.some.injEq] at h
    subst h
    unfold stepCheck
    rcases hk : c.checker with _ | checker
    · simp only [hk]
      rfl
    · rfl
  · have hnone : task.shows = none := by
      cases task <;> first | rfl | exact absurd ⟨_, rfl⟩ hc
    rw [(untouched_of_exec h).checker hr fun bytes he => hc ⟨bytes, he⟩, hnone]
    exact (Option.map_id' ..).symm

end Shown

/-- Every chunk that was let in was shown to the checker or will be. -/
theorem chunksShown_of_moves (c : Connection) (moves : List Move) :
    (chunksShown (History.of c moves).entries : Multiset Bytes) +
        toShow (History.of c moves).machine.pending =
      (letIn (History.of c moves).entries : Multiset Bytes) := by
  refine History.of_induction
    (I := fun es _ P =>
      (chunksShown es : Multiset Bytes) + toShow P = (letIn es : Multiset Bytes)) rfl ?_ moves
  intro es c others task move x o ho hsource
  have hbefore : (chunksShown es : Multiset Bytes) + toShow (task ::ₘ others) =
      (letIn es : List Bytes) := by
    rcases hsource with h | ⟨h, hb⟩
    · exact h
    · have hnone : task.shows = none := by cases hb <;> rfl
      rw [toShow_cons, hnone, Option.toList_none, Multiset.coe_nil, zero_add]
      exact h
  have hletIn : ∀ e : Entry, letIn (es ++ [e]) = letIn es ++ e.letIn := by
    intro e
    rw [letIn_append]
    exact congrArg _ (List.flatMap_singleton ..)
  rw [toShow_cons] at hbefore
  rw [hletIn, chunksShown_append, chunksShown_singleton, toShow_add, toShow_of_exec move ho,
    ← Multiset.coe_add, ← Multiset.coe_add, ← hbefore]
  ac_rfl

theorem chunksShown_from (c : Connection) (moves more : List Move) :
    (chunksShown (History.later c moves more) : Multiset Bytes) +
        toShow (History.of c (moves ++ more)).machine.pending =
      toShow (History.of c moves).machine.pending +
        (letIn (History.later c moves more) : Multiset Bytes) := by
  have hbefore := chunksShown_of_moves c moves
  have hafter := chunksShown_of_moves c (moves ++ more)
  rw [History.entries_append, letIn_append, chunksShown_append, ← Multiset.coe_add,
    ← Multiset.coe_add, ← hbefore, add_assoc, add_assoc] at hafter
  exact add_left_cancel hafter

/-- Until it is made anew, the checker tells of the chunks that it was shown since. -/
theorem checker_from (c : Connection) (moves more : List Move)
    (hr : ∀ e ∈ History.later c moves more, e.task ≠ .resetChecker) :
    (History.of c (moves ++ more)).machine.connection.checker =
      (History.of c moves).machine.connection.checker.map
        (checkAll (chunksShown (History.later c moves more))) := by
  rw [History.later_eq] at hr ⊢
  rw [History.of_append]
  dsimp only
  revert hr
  refine Machine.ahead_induction (I := fun h =>
    (∀ e ∈ h.entries, e.task ≠ .resetChecker) → h.machine.connection.checker =
      (History.of c moves).machine.connection.checker.map (checkAll (chunksShown h.entries)))
    ?_ ?_ more
  · intro _
    exact (Option.map_id' ..).symm
  · intro more move e m' ih hm hr
    obtain ⟨ho, rfl, hc, _, _⟩ := makes_of_move hm
    have hfirst := ih fun f hf => hr f (List.mem_append_left _ hf)
    rw [hc, checker_of_exec ho (hr _ (List.mem_append_right _ (List.mem_singleton_self _))), hfirst,
      chunksShown_append, chunksShown_singleton, Option.map_map]
    congr 1
    funext k
    exact (List.foldl_append ..).symm

/-! ## The law -/

/-- How far bytes and frames keep to their attempt. -/
structure Isolated (c : Connection) (moves : List Move) : Prop where
  /-- A chunk that is let in was read before, by a reader of the attempt that feeds the ring. -/
  own : ∀ before e after chunk, (History.of c moves).entries = before ++ e :: after →
    chunk ∈ e.letIn → ReadFor before e.before.feeding chunk
  /-- From here on the consumer is given what was on its way here or is let in later, and no byte of
  it twice; bytes that the ring is emptied of, refuses or loses are not among them. -/
  bytes : ∀ more,
    served (History.later c moves more) + wasted (History.later c moves more) +
        onWay (History.of c (moves ++ more)).machine.connection
          (History.of c (moves ++ more)).machine.pending =
      onWay (History.of c moves).machine.connection (History.of c moves).machine.pending +
        come (History.later c moves more)
  /-- The checker is shown the chunks that were about to be shown here or are let in later. -/
  frames : ∀ more,
    (chunksShown (History.later c moves more) : Multiset Bytes) +
        toShow (History.of c (moves ++ more)).machine.pending =
      toShow (History.of c moves).machine.pending +
        (letIn (History.later c moves more) : Multiset Bytes)
  /-- The figures are those of the chunks shown since the checker was made. -/
  figures : ∀ more, (∀ e ∈ History.later c moves more, e.task ≠ .resetChecker) →
    (History.of c (moves ++ more)).machine.connection.checker =
      (History.of c moves).machine.connection.checker.map
        (checkAll (chunksShown (History.later c moves more)))
  /-- So while one attempt feeds the ring, and nothing of another was on its way, all that is given
  and all that is shown was read by a reader of that attempt. -/
  apart : ∀ more n, (∀ e ∈ History.later c moves more, e.before.feeding = n) →
    (onWay (History.of c moves).machine.connection (History.of c moves).machine.pending = 0 →
      served (History.later c moves more) ≤ come (History.later c moves more)) ∧
    (toShow (History.of c moves).machine.pending = 0 →
      (chunksShown (History.later c moves more) : Multiset Bytes) ≤
        (letIn (History.later c moves more) : Multiset Bytes)) ∧
    ∀ chunk ∈ letIn (History.later c moves more),
      ReadFor (History.of c (moves ++ more)).entries n chunk

theorem apart_of_own {c : Connection} {moves more : List Move} {n : Nat} {chunk : Bytes}
    (own : ∀ before e after, (History.of c (moves ++ more)).entries = before ++ e :: after →
      chunk ∈ e.letIn → ReadFor before e.before.feeding chunk)
    (hfeeds : ∀ e ∈ History.later c moves more, e.before.feeding = n)
    (hchunk : chunk ∈ letIn (History.later c moves more)) :
    ReadFor (History.of c (moves ++ more)).entries n chunk := by
  obtain ⟨e, he, hletIn⟩ := List.mem_flatMap.mp hchunk
  obtain ⟨front, back, hsplit⟩ := List.append_of_mem he
  have hentries : (History.of c (moves ++ more)).entries =
      ((History.of c moves).entries ++ front) ++ e :: back := by
    rw [History.entries_append, hsplit, List.append_assoc]
  have hread := own _ e back hentries hletIn
  rw [hfeeds e he] at hread
  rw [hentries]
  exact hread.mono _

/-- Whatever moves a connection makes, a chunk is let in only for the attempt that read it, and only
bytes that are on their way when the marker passes on can come to another attempt. -/
theorem only_bytes_on_their_way_cross (device : DeviceInfo) (config : ConnectionConfig)
    (prober : Prober) (moves : List Move) : Isolated (.new device config prober) moves := by
  have hbytes := ledger_from device config prober moves
  have hframes := chunksShown_from (.new device config prober) moves
  refine ⟨fun _ _ _ _ => read_for_of_moves device config prober moves, hbytes, hframes,
    checker_from _ moves, ?_⟩
  intro more n hfeeds
  refine ⟨fun hway => ?_, fun hshow => ?_, fun chunk hchunk => ?_⟩
  · have hledger := hbytes more
    dsimp only at hledger
    rw [hway, zero_add, add_assoc] at hledger
    rw [← hledger]
    exact Multiset.le_add_right _ _
  · have hledger := hframes more
    rw [hshow, zero_add] at hledger
    rw [← hledger]
    exact Multiset.le_add_right _ _
  · exact apart_of_own (fun _ _ _ => read_for_of_moves device config prober (moves ++ more)) hfeeds
      hchunk

/-- A chunk of an older attempt may come to a newer one. In the first run a chunk that was let in
for the first attempt goes on when the second one is connected: it is counted there and given to
the consumer, and no reader of the second attempt has read yet. In the second run the first attempt
ends before its drain is recorded, and what is buffered then is given to the consumer when the
second attempt has begun. -/
theorem a_chunk_on_its_way_may_cross :
    let x : Outside :=
      { subscribe := .ok 1, permitted := true, requestPermission := .ok ()
        openPort := fun _ => .ok (), packetSize := fun _ => 64
        setParameters := fun _ _ => .ok (), write := fun _ data => .ok data.length
        read := fun _ _ => some (.ok [250, 211, 1, 1]) }
    let steps (thread count : Nat) : List Move := List.replicate count (.step thread x)
    let run (moves : List Move) : History :=
      .of (.new ⟨"usb", Vendor.ftdi, 0x6001, none, none⟩
          { ringCapacity := 8, diagnostics := some { sequenceOffset := 2, subIndexOffset := 3 } }
          {})
        ([.call .connect x] ++ moves)
    let late := steps 0 14 ++ steps 1 5 ++ [.call .disconnect x] ++ steps 3 5 ++
      [.call .connect x] ++ steps 4 14 ++ steps 1 2 ++ steps 6 3
    let buffered := steps 0 11 ++ steps 1 7 ++ [.call .disconnect x]
    let again := buffered ++ [.call .connect x] ++ steps 2 3
    let ports (h : History) : List Nat := h.effects.filterMap fun
      | .readFrom port _ => some port
      | _ => none
    ((run late).machine.connection.state = .connected ∧
        (run late).machine.connection.session.attempt = 2 ∧
        (run late).machine.connection.session.resources.port = some 1 ∧
        batches (run late).entries = [[250, 211, 1, 1]] ∧
        (run late).machine.connection.lossSummary.map (·.totalFrames) = some 1 ∧
        ports (run late) = [0]) ∧
      (run buffered).machine.connection.state = .disconnected ∧
      (run buffered).machine.connection.ring.contents = [250, 211, 1, 1] ∧
      batches (run buffered).entries = [] ∧
      (run again).machine.connection.session.attempt = 2 ∧
      batches (run again).entries = [[250, 211, 1, 1]] := by
  decide +kernel

end SerialLink.Connection
