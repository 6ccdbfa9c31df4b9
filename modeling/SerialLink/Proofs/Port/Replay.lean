-- What comes of a script. What the reads of a port bring and what is still
-- scripted is what was ever scripted: every byte and every error, once and in its
-- order, however often the port is closed in between.
import SerialLink.Proofs.Port.Histories

namespace SerialLink

/-! ## Pieces of a script -/

/-- What a script is made of. -/
inductive Piece
  | byte (b : UInt8)
  | error (e : PortError)

namespace Piece

def ofBytes (bytes : Bytes) : List Piece := bytes.map byte

/-- The pieces of an entry. -/
def ofEntry : ScriptEntry → List Piece
  | .ok chunk => ofBytes chunk
  | .error e => [error e]

/-- The pieces of a script, in order. -/
def ofScript (script : List ScriptEntry) : List Piece := script.flatMap ofEntry

def byte? : Piece → Option UInt8
  | byte b => some b
  | error _ => none

/-- The bytes among the pieces. -/
def bytes (pieces : List Piece) : Bytes := pieces.filterMap byte?

theorem ofBytes_append (bytes more : Bytes) :
    ofBytes (bytes ++ more) = ofBytes bytes ++ ofBytes more := List.map_append

theorem ofScript_append (script more : List ScriptEntry) :
    ofScript (script ++ more) = ofScript script ++ ofScript more := List.flatMap_append

theorem ofScript_cons (entry : ScriptEntry) (script : List ScriptEntry) :
    ofScript (entry :: script) = ofEntry entry ++ ofScript script := rfl

theorem ofScript_singleton (entry : ScriptEntry) : ofScript [entry] = ofEntry entry :=
  List.flatMap_singleton ..

theorem bytes_ofEntry (entry : ScriptEntry) : bytes (ofEntry entry) = entry.toOption.getD [] := by
  cases entry with
  | error e => rfl
  | ok chunk =>
    unfold bytes ofEntry ofBytes
    dsimp only
    rw [List.filterMap_map]
    exact List.filterMap_some

end Piece

/-- The bytes of a script, in order. -/
def bytesOfScript (script : List ScriptEntry) : Bytes :=
  script.flatMap fun entry => entry.toOption.getD []

theorem Piece.bytes_ofScript (script : List ScriptEntry) :
    Piece.bytes (Piece.ofScript script) = bytesOfScript script := by
  unfold Piece.bytes Piece.ofScript
  rw [List.filterMap_flatMap]
  exact List.flatMap_congr fun entry _ => Piece.bytes_ofEntry entry

namespace SharedPort

/-! ## What was taken -/

namespace Reading

/-- What was read: as much of the buffer as was told, or the error. -/
def brought (r : Reading) : ScriptEntry := r.result.map fun n => r.filled.take n

/-- What was taken from the script. A read of a closed port takes nothing. -/
def taken (r : Reading) : List Piece := if r.closed then [] else Piece.ofEntry r.brought

end Reading

namespace History

/-- What all reads took from the script, in order. -/
def taken (h : History) : List Piece := h.readings.flatMap Reading.taken

/-- What the first `n` reads took. -/
def takenBefore (h : History) (n : Nat) : List Piece := (h.readings.take n).flatMap Reading.taken

end History

/-! ## How far a script was read -/

section Taken

variable {p p' : ScriptedPort} {r : Reading}

theorem taken_brought {buffer chunk : Bytes} {k : Nat} (hk : k ≤ chunk.length) :
    Reading.taken ⟨buffer, .ok k, chunk.take k ++ buffer.drop k, false⟩ =
      Piece.ofBytes (chunk.take k) := by
  have htake : (chunk.take k ++ buffer.drop k).take k = chunk.take k :=
    List.take_left' (List.length_take_of_le hk)
  unfold Reading.taken Reading.brought
  simp only [Bool.false_eq_true, if_false, Except.map, htake]
  rfl

/-- A read of an open port takes from the first entry alone, from the front of it. -/
theorem Comes.front {entry : ScriptEntry} {rest : List ScriptEntry} (h : Comes p r p')
    (hscript : p.script = entry :: rest) :
    r.taken = [] ∧ p'.script = p.script ∨
      ∃ left, p'.script = left ++ rest ∧ r.taken ++ Piece.ofScript left = Piece.ofEntry entry := by
  cases h with
  | refused => exact Or.inl ⟨rfl, rfl⟩
  | failed _ script =>
    obtain ⟨rfl, rfl⟩ := List.cons.inj (hscript.symm.trans script)
    exact Or.inr ⟨[], rfl, rfl⟩
  | @brought buffer chunk k left _ _ script size whole part =>
    obtain ⟨rfl, rfl⟩ := List.cons.inj (hscript.symm.trans script)
    refine Or.inr ⟨left, rfl, ?_⟩
    rw [taken_brought (by omega)]
    rcases Nat.lt_or_ge k chunk.length with hlt | hge
    · rw [part hlt, Piece.ofScript_singleton]
      change _ ++ Piece.ofBytes (chunk.drop k) = Piece.ofBytes chunk
      rw [← Piece.ofBytes_append, List.take_append_drop]
    · rw [whole hge, List.take_of_length_le hge]
      exact List.append_nil _

/-- A read of an open port comes to an error that stands in front. -/
theorem Comes.at_error {e : PortError} {rest : List ScriptEntry} (h : Comes p r p')
    (hscript : p.script = .error e :: rest) :
    r.taken = [] ∧ p'.script = p.script ∨ r.closed = false ∧ r.result = .error e := by
  cases h with
  | refused => exact Or.inl ⟨rfl, rfl⟩
  | failed _ script =>
    cases hscript.symm.trans script
    exact Or.inr ⟨rfl, rfl⟩
  | brought _ script => cases hscript.symm.trans script

end Taken

/-- Puts what was read of a chunk back in front of what is left of it. -/
def rejoin (part : Bytes) : List ScriptEntry → List ScriptEntry
  | .ok left :: after => .ok (part ++ left) :: after
  | script => script

theorem rejoin_nil (script : List ScriptEntry) : rejoin [] script = script := by
  rcases script with _ | ⟨_ | _, _⟩ <;> rfl

namespace History

/-- The reads have come to this place: the entries `before` were read to their end, and this part of
the next one. -/
structure Reached (h : History) (before : List ScriptEntry) (part : Bytes) : Prop where
  pushed : h.pushed = before ++ rejoin part h.port.script
  taken : h.taken = Piece.ofScript before ++ Piece.ofBytes part
  inside : part ≠ [] → ∃ left after, h.port.script = .ok left :: after ∧ left ≠ []

section Reached

variable {h h' : History} {before : List ScriptEntry} {part : Bytes}

/-- What was taken and what is left is what was scripted. -/
theorem Reached.conserved (hr : Reached h before part) :
    h.taken ++ Piece.ofScript h.port.script = Piece.ofScript h.pushed := by
  have hrejoined : Piece.ofScript (rejoin part h.port.script) =
      Piece.ofBytes part ++ Piece.ofScript h.port.script := by
    by_cases hp : part = []
    · rw [hp, rejoin_nil]
      rfl
    · obtain ⟨left, after, hscript, _⟩ := hr.inside hp
      rw [hscript, Piece.ofScript_cons, ← List.append_assoc]
      exact congrArg (· ++ _) (Piece.ofBytes_append part left)
  rw [hr.pushed, hr.taken, Piece.ofScript_append, hrejoined, List.append_assoc]

/-- The reads stand in front of an error, never inside it. -/
theorem Reached.at_error {e : PortError} {rest : List ScriptEntry} (hr : Reached h before part)
    (hscript : h.port.script = .error e :: rest) : part = [] := by
  by_contra hp
  obtain ⟨left, after, hs, _⟩ := hr.inside hp
  cases hscript.symm.trans hs

/-- Of a chunk that stands in front something is left, if there was anything in it. -/
theorem Reached.at_chunk {left : Bytes} {rest : List ScriptEntry} (hr : Reached h before part)
    (hscript : h.port.script = .ok left :: rest) :
    part.length < (part ++ left).length ∨ part ++ left = [] := by
  by_cases hleft : left = []
  · have hpart : part = [] := by
      by_contra hp
      obtain ⟨left', after, hs, hleft'⟩ := hr.inside hp
      cases hscript.symm.trans hs
      exact hleft' hleft
    exact Or.inr (List.append_eq_nil_iff.mpr ⟨hpart, hleft⟩)
  · left
    have := List.length_pos_iff.mpr hleft
    rw [List.length_append]
    omega

theorem Reached.scripted (hr : Reached h before part) {shared : SharedPort} (entry : ScriptEntry)
    (hscript : shared.port.script = h.port.script ++ [entry]) :
    Reached { h with shared, pushed := h.pushed ++ [entry] } before part := by
  have hrejoin : rejoin part (h.port.script ++ [entry]) = rejoin part h.port.script ++ [entry] := by
    by_cases hp : part = []
    · rw [hp, rejoin_nil, rejoin_nil]
    · obtain ⟨left, after, hs, _⟩ := hr.inside hp
      rw [hs]
      rfl
  refine ⟨?_, hr.taken, fun hp => ?_⟩
  · change h.pushed ++ [entry] = before ++ rejoin part shared.port.script
    rw [hscript, hrejoin, hr.pushed, List.append_assoc]
  · obtain ⟨left, after, hs, hleft⟩ := hr.inside hp
    refine ⟨left, after ++ [entry], ?_, hleft⟩
    change shared.port.script = _
    rw [hscript, hs]
    rfl

theorem taken_snoc (h : History) (shared : SharedPort) (asked : List Bytes) (r : Reading) :
    ({ h with shared, asked, readings := h.readings ++ [r] } : History).taken =
      h.taken ++ r.taken := by
  unfold taken
  rw [List.flatMap_append, List.flatMap_singleton]

/-- Where a read comes back, the place moves on by what it took. -/
theorem Reached.came (hr : Reached h before part) {shared : SharedPort} {asked : List Bytes}
    {r : Reading} (hcomes : Comes h.port r shared.port) :
    ∃ before' part',
      Reached { h with shared, asked, readings := h.readings ++ [r] } before' part' := by
  have htaken := taken_snoc h shared asked r
  rw [hr.taken] at htaken
  obtain ⟨port, waiting⟩ := shared
  change Comes h.port r port at hcomes
  cases hcomes with
  | refused => exact ⟨before, part, hr.pushed, htaken.trans (List.append_nil _), hr.inside⟩
  | @failed buffer e rest _ script =>
    obtain rfl := hr.at_error script
    refine ⟨before ++ [.error e], [], ?_, ?_, fun hp => absurd rfl hp⟩
    · change h.pushed = before ++ [.error e] ++ rejoin [] rest
      rw [hr.pushed, rejoin_nil, rejoin_nil, script, List.append_assoc]
      rfl
    · rw [htaken, Piece.ofScript_append, List.append_assoc, List.append_assoc]
      rfl
  | @brought buffer chunk k left rest _ script size whole ispart =>
    have hpushed : h.pushed = before ++ .ok (part ++ chunk) :: rest := by
      rw [hr.pushed, script]
      rfl
    rw [taken_brought (by omega), List.append_assoc, ← Piece.ofBytes_append] at htaken
    -- The place stays in this chunk while something of it is left.
    rcases Nat.lt_or_ge k chunk.length with hlt | hge
    · obtain rfl := ispart hlt
      have hleft : chunk.drop k ≠ [] := by
        rw [Ne, List.drop_eq_nil_iff]
        omega
      refine ⟨before, part ++ chunk.take k, ?_, htaken, fun _ => ⟨_, rest, rfl, hleft⟩⟩
      change h.pushed = before ++ .ok (part ++ chunk.take k ++ chunk.drop k) :: rest
      rw [List.append_assoc, List.take_append_drop, hpushed]
    · obtain rfl := whole hge
      refine ⟨before ++ [.ok (part ++ chunk)], [], ?_, ?_, fun hp => absurd rfl hp⟩
      · change h.pushed = before ++ [.ok (part ++ chunk)] ++ rejoin [] rest
        rw [rejoin_nil, hpushed, List.append_assoc]
        rfl
      · rw [htaken, List.take_of_length_le hge, Piece.ofScript_append, Piece.ofScript_singleton]
        exact (List.append_nil _).symm

theorem Does.reached (hd : Does h h') (hr : ∃ before part, Reached h before part) :
    ∃ before part, Reached h' before part := by
  obtain ⟨before, part, hr⟩ := hr
  cases hd with
  | @aside shared asked script =>
    refine ⟨before, part, ?_, hr.taken, ?_⟩
    · change h.pushed = before ++ rejoin part shared.port.script
      rw [script]
      exact hr.pushed
    · change part ≠ [] → ∃ left after, shared.port.script = _ ∧ _
      rw [script]
      exact hr.inside
  | scripted entry script => exact ⟨before, part, hr.scripted entry script⟩
  | came comes => exact hr.came comes

end Reached

/-! ## The reads one by one -/

/-- What read number `n` brought, and from which place of the script. -/
inductive Account (h : History) (n : Nat) (r : Reading) : Prop
  | refused (closed : r.closed = true) (result : r.result = .error .closed)
    (filled : r.filled = r.buffer)
  /-- The error that stands behind all that was taken before. -/
  | failed {before after : List ScriptEntry} {e : PortError} (opened : r.closed = false)
    (pushed : h.pushed = before ++ .error e :: after)
    (place : h.takenBefore n = Piece.ofScript before)
    (result : r.result = .error e) (filled : r.filled = r.buffer)
  /-- The next bytes of the chunk that stands there, as many as there are and fit. They are in the
  front of the buffer, and the rest of the buffer is as it was. -/
  | brought {before after : List ScriptEntry} {chunk : Bytes} {o k : Nat}
    (opened : r.closed = false) (pushed : h.pushed = before ++ .ok chunk :: after)
    (within : o < chunk.length ∨ chunk = [])
    (place : h.takenBefore n = Piece.ofScript before ++ Piece.ofBytes (chunk.take o))
    (size : k = min r.buffer.length (chunk.length - o)) (result : r.result = .ok k)
    (filled : r.filled = (chunk.drop o).take k ++ r.buffer.drop k)

/-- The first `n` reads took just what is scripted before an error, and the next brought it. -/
def Returns (h : History) (n : Nat) (before : List ScriptEntry) (e : PortError) : Prop :=
  h.takenBefore n = Piece.ofScript before ∧
    ∃ r, h.readings[n]? = some r ∧ r.closed = false ∧ r.result = .error e

/-- The reads have yet to take something that is scripted before an error, or the error itself. -/
def Awaits (h : History) (before : List ScriptEntry) (e : PortError) (after : List ScriptEntry) :
    Prop :=
  ∃ left, h.port.script = left ++ .error e :: after ∧
    h.taken ++ Piece.ofScript left = Piece.ofScript before

theorem takenBefore_length (h : History) : h.takenBefore h.readings.length = h.taken := by
  unfold takenBefore taken
  rw [List.take_length]

/-- What is scripted and what was read only grows. -/
structure Grows (h h' : History) : Prop where
  pushed : h.pushed <+: h'.pushed
  readings : h.readings <+: h'.readings

section Accounts

variable {h h' : History} {n : Nat} {r : Reading} {before after : List ScriptEntry} {e : PortError}

theorem Does.grows (hd : Does h h') : Grows h h' := by
  cases hd with
  | aside => exact ⟨List.prefix_refl _, List.prefix_refl _⟩
  | scripted => exact ⟨List.prefix_append .., List.prefix_refl _⟩
  | came => exact ⟨List.prefix_refl _, List.prefix_append ..⟩

theorem Grows.takenBefore (hg : Grows h h') (hn : n ≤ h.readings.length) :
    h'.takenBefore n = h.takenBefore n := by
  obtain ⟨more, hmore⟩ := hg.readings
  unfold History.takenBefore
  rw [← hmore, List.take_append_of_le_length hn]

theorem Account.grow (ha : Account h n r) (hg : Grows h h') (hn : n ≤ h.readings.length) :
    Account h' n r := by
  obtain ⟨more, hmore⟩ := hg.pushed
  have htaken := hg.takenBefore hn
  cases ha with
  | refused closed result filled => exact .refused closed result filled
  | @failed before after e opened pushed place result filled =>
    have hpushed : h'.pushed = before ++ .error e :: (after ++ more) := by
      rw [← hmore, pushed, List.append_assoc]
      rfl
    exact .failed opened hpushed (htaken.trans place) result filled
  | @brought before after chunk _ _ opened pushed within place size result filled =>
    have hpushed : h'.pushed = before ++ .ok chunk :: (after ++ more) := by
      rw [← hmore, pushed, List.append_assoc]
      rfl
    exact .brought opened hpushed within (htaken.trans place) size result filled

theorem Account.refuses (ha : Account h n r) (hclosed : r.closed = true) :
    r.result = .error .closed := by
  cases ha with
  | refused _ result => exact result
  | failed opened | brought opened => cases hclosed.symm.trans opened

/-- A read that comes back goes on from the place that the reads before it have come to. -/
theorem Reached.account {part : Bytes} {port : ScriptedPort} (hr : Reached h before part)
    (hcomes : Comes h.port r port) (hplace : h.takenBefore n = h.taken) : Account h n r := by
  have htaken := hplace.trans hr.taken
  have hpushed := hr.pushed
  cases hcomes with
  | refused => exact .refused rfl rfl rfl
  | @failed _ e rest opened script =>
    obtain rfl := hr.at_error script
    rw [rejoin_nil, script] at hpushed
    exact .failed rfl hpushed (htaken.trans (List.append_nil _)) rfl rfl
  | @brought buffer chunk k left rest opened script size =>
    rw [script] at hpushed
    change h.pushed = before ++ .ok (part ++ chunk) :: rest at hpushed
    have hlen : (part ++ chunk).length = part.length + chunk.length := List.length_append
    refine .brought rfl hpushed (hr.at_chunk script) ?_ ?_ rfl ?_
    · rw [List.take_left]
      exact htaken
    · rw [hlen, Nat.add_sub_cancel_left]
      exact size
    · rw [List.drop_left]

theorem takenBefore_lt {m : Nat} (hr : h.readings[n]? = some r) (hlt : n < m) :
    (h.takenBefore n).length + r.taken.length ≤ (h.takenBefore m).length := by
  obtain ⟨more, hmore⟩ := List.take_prefix_take_left (l := h.readings) (Nat.succ_le_of_lt hlt)
  have hsucc : h.readings.take (n + 1) = h.readings.take n ++ [r] := by
    rw [List.take_add_one, hr]
    rfl
  unfold takenBefore
  rw [← hmore, hsucc, List.flatMap_append, List.flatMap_append, List.flatMap_singleton,
    List.length_append, List.length_append]
  omega

theorem taken_of_failed (hc : r.closed = false) (he : r.result = .error e) :
    r.taken = [.error e] := by
  unfold Reading.taken Reading.brought
  rw [hc, he]
  rfl

/-- One read alone brings an error. -/
theorem Returns.unique {m : Nat} (hn : Returns h n before e) (hm : Returns h m before e) :
    n = m := by
  have hbefore : ∀ {n m : Nat}, Returns h n before e → Returns h m before e → ¬ n < m := by
    rintro n m ⟨hplace, r, hr, hc, he⟩ ⟨hplace', _⟩ hlt
    have hle := takenBefore_lt hr hlt
    rw [hplace, hplace', taken_of_failed hc he, List.length_singleton] at hle
    omega
  rcases Nat.lt_trichotomy n m with hlt | heq | hgt
  · exact absurd hlt (hbefore hn hm)
  · exact heq
  · exact absurd hgt (hbefore hm hn)

theorem Returns.grow (hn : Returns h n before e) (hg : Grows h h') : Returns h' n before e := by
  obtain ⟨hplace, r, hr, hc, he⟩ := hn
  obtain ⟨hlt, _⟩ := List.getElem?_eq_some_iff.mp hr
  obtain ⟨more, hmore⟩ := hg.readings
  refine ⟨(hg.takenBefore (Nat.le_of_lt hlt)).trans hplace, r, ?_, hc, he⟩
  rw [← hmore, List.getElem?_append_left hlt]
  exact hr

/-- A read takes something of what is ahead of an error, or brings the error. -/
theorem Awaits.came (ha : Awaits h before e after) {shared : SharedPort} {asked : List Bytes}
    (hcomes : Comes h.port r shared.port) :
    let h' : History := { h with shared, asked, readings := h.readings ++ [r] }
    Returns h' h.readings.length before e ∨ Awaits h' before e after := by
  intro h'
  have hgrows : Grows h h' := (Does.came hcomes).grows
  obtain ⟨left, hscript, hahead⟩ := ha
  have htaken : h'.taken = h.taken ++ r.taken := taken_snoc h shared asked r
  -- Either the error stands in front, or the read cannot reach beyond what does.
  rcases left with _ | ⟨entry, rest⟩
  · rcases hcomes.at_error hscript with ⟨hnone, hsame⟩ | ⟨hopen, herror⟩
    · refine Or.inr ⟨[], hsame.trans hscript, ?_⟩
      rw [htaken, hnone, List.append_nil]
      exact hahead
    · refine Or.inl ⟨?_, r, List.getElem?_concat_length, hopen, herror⟩
      rw [hgrows.takenBefore (Nat.le_refl _), takenBefore_length]
      exact (List.append_nil _).symm.trans hahead
  · right
    rcases hcomes.front hscript with ⟨hnone, hsame⟩ | ⟨left, hleft, hentry⟩
    · refine ⟨entry :: rest, hsame.trans hscript, ?_⟩
      rw [htaken, hnone, List.append_nil]
      exact hahead
    · refine ⟨left ++ rest, ?_, ?_⟩
      · change shared.port.script = _
        rw [hleft, List.append_assoc]
        rfl
      · rw [htaken, Piece.ofScript_append, List.append_assoc, ← List.append_assoc r.taken, hentry,
          ← Piece.ofScript_cons]
        exact hahead

/-- An error that was scripted came back, or will. -/
def Owed (h : History) : Prop :=
  ∀ before e after, h.pushed = before ++ .error e :: after →
    (∃ n, Returns h n before e) ∨ Awaits h before e after

theorem Awaits.not_returns (ha : Awaits h before e after) : ¬ Returns h n before e := by
  rintro ⟨hplace, r, hr, hc, he⟩
  obtain ⟨left, _, hahead⟩ := ha
  have hle := takenBefore_lt hr (List.getElem?_eq_some_iff.mp hr).1
  have hlen := congrArg List.length hahead
  rw [hplace, takenBefore_length, taken_of_failed hc he, List.length_singleton] at hle
  rw [List.length_append] at hlen
  omega

theorem Does.owed (hd : Does h h') {past : List ScriptEntry} {part : Bytes}
    (hr : Reached h past part) (ho : Owed h) : Owed h' := by
  have hgrows := hd.grows
  intro before e after hpushed
  cases hd with
  | @aside shared asked script =>
    rcases ho before e after hpushed with ⟨n, hn⟩ | ⟨left, hleft, hahead⟩
    · exact Or.inl ⟨n, hn.grow hgrows⟩
    · exact Or.inr ⟨left, script.trans hleft, hahead⟩
  | @scripted shared entry script =>
    -- The error is the new entry, or one of the old ones.
    rcases List.eq_nil_or_concat' after with rfl | ⟨init, last, rfl⟩
    · obtain ⟨hold, hentry⟩ := List.append_inj' hpushed rfl
      obtain rfl : entry = .error e := List.singleton_inj.mp hentry
      exact Or.inr ⟨h.port.script, script, hr.conserved.trans (congrArg Piece.ofScript hold)⟩
    · rw [← List.cons_append, ← List.append_assoc] at hpushed
      obtain ⟨hold, hentry⟩ := List.append_inj' hpushed rfl
      obtain rfl : entry = last := List.singleton_inj.mp hentry
      rcases ho before e init hold with ⟨n, hn⟩ | ⟨left, hleft, hahead⟩
      · exact Or.inl ⟨n, hn.grow hgrows⟩
      · refine Or.inr ⟨left, ?_, hahead⟩
        change shared.port.script = _
        rw [script, hleft, List.append_assoc]
        rfl
  | came comes =>
    rcases ho before e after hpushed with ⟨n, hn⟩ | ha
    · exact Or.inl ⟨n, hn.grow hgrows⟩
    · rcases ha.came comes with hreturns | hawaits
      · exact Or.inl ⟨_, hreturns⟩
      · exact Or.inr hawaits

theorem Does.accounts (hd : Does h h') {part : Bytes} (hr : Reached h before part)
    (ha : ∀ n r, h.readings[n]? = some r → Account h n r) :
    ∀ n r, h'.readings[n]? = some r → Account h' n r := by
  have hgrows := hd.grows
  have hold : ∀ {n r}, h.readings[n]? = some r → Account h' n r := fun hn =>
    (ha _ _ hn).grow hgrows (Nat.le_of_lt (List.getElem?_eq_some_iff.mp hn).1)
  cases hd with
  | aside | scripted => exact fun n r hn => hold hn
  | @came _ _ r comes =>
    intro n r' hn
    change (h.readings ++ [r])[n]? = some r' at hn
    rcases Nat.lt_trichotomy n h.readings.length with hlt | rfl | hgt
    · rw [List.getElem?_append_left hlt] at hn
      exact hold hn
    · obtain rfl : r = r' := Option.some.inj (List.getElem?_concat_length.symm.trans hn)
      exact (hr.account comes h.takenBefore_length).grow hgrows (Nat.le_refl _)
    · have hnone : (h.readings ++ [r])[n]? = none := by
        rw [List.getElem?_eq_none_iff, List.length_append, List.length_singleton]
        omega
      cases hnone.symm.trans hn

end Accounts

/-! ## The law -/

/-- What is always known of a history. -/
structure Sound (h : History) : Prop where
  reached : ∃ before part, Reached h before part
  each : ∀ n r, h.readings[n]? = some r → Account h n r
  owed : Owed h
  sleeps : Sleeps h.shared
  calls : h.calls.Perm h.asked

theorem sound_begin (packetSize : Nat) : Sound (begin packetSize) := by
  refine ⟨⟨[], [], rfl, rfl, fun hp => absurd rfl hp⟩, fun _ _ hn => ?_,
    fun before _ _ hpushed => ?_, fun _ hw => (List.not_mem_nil hw).elim, .refl _⟩
  · cases hn
  · rcases before with _ | ⟨_, _⟩ <;> cases hpushed

theorem Sound.extend {h : History} (hs : Sound h) (move : Move) : Sound (h.extend move) := by
  have hdoes := does_extend h move
  obtain ⟨before, part, hreached⟩ := hs.reached
  exact ⟨hdoes.reached hs.reached, hdoes.accounts hreached hs.each, hdoes.owed hreached hs.owed,
    sleeps_extend hs.sleeps move, calls_extend hs.calls move⟩

theorem Sound.after {h : History} (hs : Sound h) (moves : List Move) : Sound (h.after moves) := by
  induction moves generalizing h with
  | nil => exact hs
  | cons move moves ih => exact ih (hs.extend move)

/-- The bytes that came back are those that were taken. -/
theorem bytes_taken {h : History} (hs : Sound h) :
    Piece.bytes h.taken = bytesOfScript (h.readings.map Reading.brought) := by
  have hreading : ∀ r ∈ h.readings, Piece.bytes r.taken = r.brought.toOption.getD [] := by
    intro r hr
    obtain ⟨n, hn⟩ := List.mem_iff_getElem?.mp hr
    unfold Reading.taken
    by_cases hclosed : r.closed = true
    · rw [if_pos hclosed, Reading.brought, (hs.each n r hn).refuses hclosed]
      rfl
    · rw [if_neg hclosed, Piece.bytes_ofEntry]
  unfold taken bytesOfScript Piece.bytes
  rw [List.flatMap_map, List.filterMap_flatMap]
  exact List.flatMap_congr hreading

/-- Nothing of what is scripted is lost, doubled or put out of order. -/
structure Replays (h : History) : Prop where
  /-- What the reads took and what is still scripted is all that was ever scripted. -/
  pieces : h.taken ++ Piece.ofScript h.port.script = Piece.ofScript h.pushed
  bytes : bytesOfScript (h.readings.map Reading.brought) ++ bytesOfScript h.port.script =
    bytesOfScript h.pushed
  /-- Each read brought what stood at the place that the reads before it had come to. -/
  each : ∀ n r, h.readings[n]? = some r → Account h n r
  /-- Each error came back from one read, or is still ahead. -/
  errors : ∀ before e after, h.pushed = before ++ .error e :: after →
    (∃ n, ∀ m, Returns h m before e ↔ m = n) ∨
      Awaits h before e after ∧ ∀ n, ¬ Returns h n before e
  /-- Each read that was called came back or waits. -/
  calls : h.calls.Perm h.asked
  /-- A read waits, on its first look and on each turn that it gets, just as long as the port is
  open and has no script. -/
  looks : ∀ buffer, (h.shared.read buffer).1 = none ↔ h.port.closed = false ∧ h.port.script = []
  turns : ∀ n w, h.shared.waiting[n]? = some w →
    ((h.shared.resume n).1 = none ↔ h.port.closed = false ∧ h.port.script = [])
  /-- A port that is closed refuses every read and keeps its script. -/
  closed : h.port.closed = true → ∀ moves, Move.reopen ∉ moves → Frozen h (h.after moves)
  /-- Opened again, it can be read to the end. -/
  ends : ∀ buffers : List Bytes, (∀ buffer ∈ buffers, buffer ≠ []) →
    ScriptedPort.scriptReads h.port.script ≤ buffers.length →
    (h.after (.reopen :: buffers.map .read)).port.script = []

theorem Sound.replays {h : History} (hs : Sound h) : Replays h := by
  obtain ⟨before, part, hreached⟩ := hs.reached
  refine ⟨hreached.conserved, ?_, hs.each, fun before e after hpushed => ?_, hs.calls,
    read_fst_eq_none_iff h.shared, fun n w hw => hs.sleeps.resume_fst_eq_none_iff hw,
    fun hclosed moves => frozen_after hclosed, fun buffers hroom hlen => ?_⟩
  · rw [← bytes_taken hs, ← Piece.bytes_ofScript, ← Piece.bytes_ofScript, ← hreached.conserved]
    exact List.filterMap_append.symm
  · rcases hs.owed before e after hpushed with ⟨n, hn⟩ | ha
    · exact Or.inl ⟨n, fun m => ⟨fun hm => hm.unique hn, fun hm => hm ▸ hn⟩⟩
    · exact Or.inr ⟨ha, fun n => ha.not_returns⟩
  · have hopen : (h.extend .reopen).port.closed = false := rfl
    exact drained hopen hroom hlen

/-- Whatever is scripted, read, closed and opened again, in whatever order, a port replays its
script whole. -/
theorem a_script_is_replayed_whole (packetSize : Nat) (moves : List Move) :
    Replays ((begin packetSize).after moves) :=
  ((sound_begin packetSize).after moves).replays

/-- A chunk is read in two parts, and between them the port is closed for a while. Then a read falls
asleep before the error, and one without room takes nothing from the chunk behind it. -/
example :
    let moves : List Move := [.push [1, 2, 3], .read [9, 9], .close, .read [9], .reopen,
      .read [9, 9], .read [8], .pushError (.io "lost"), .push [4], .resume 0, .read []]
    (((begin 64).after moves).readings.map fun r => (r.result, r.filled)) =
        [(.ok 2, [1, 2]), (.error .closed, [9]), (.ok 1, [3, 9]), (.error (.io "lost"), [8]),
          (.ok 0, [])] ∧
      ((begin 64).after moves).port.script = [.ok [4]] := by
  decide +kernel

end History

end SharedPort

end SerialLink
